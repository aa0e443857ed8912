/-!
# Look-ups in lists of pairs
-/

namespace SchemaForge

/-- Where no key comes twice, a key finds the value that stands beside it. -/
theorem lookup_eq_some_iff_of_nodup [BEq κ] [LawfulBEq κ] {entries : List (κ × ν)}
    (h : (entries.map Prod.fst).Nodup) {k : κ} {v : ν} :
    entries.lookup k = some v ↔ (k, v) ∈ entries := by
  induction entries with
  | nil => simp
  | cons head rest ih =>
    obtain ⟨m, w⟩ := head
    obtain ⟨hm, hrest⟩ := List.nodup_cons.mp h
    rw [List.lookup_cons, List.mem_cons, ← ih hrest]
    by_cases heq : k = m
    · subst heq
      have hfree : rest.lookup k = none := by
        rw [List.lookup_eq_none_iff]
        intro p hp
        apply bne_iff_ne.mpr
        intro hk
        exact hm (List.mem_map.mpr ⟨p, hp, hk.symm⟩)
      simp [hfree, eq_comm]
    · have hdiffer : (k == m) = false := beq_eq_false_iff_ne.mpr heq
      simp [hdiffer, heq]

end SchemaForge
