import SchemaForge.Proofs.Store.Invariant

/-!
# Loading what has been dumped

Loading accepts the consistent rows and no others, and dumping is its inverse up to the order of the
rows. So the rows of every store that a run leads to can be loaded, and give the store back.
-/

namespace SchemaForge.Store

/-- Rows are loaded exactly if they are consistent. Their order matters neither for that nor for the
store that comes out, whose rows are the ones given, by number. Every store that a run leads to is
loaded back from its rows. -/
theorem loads_exactly_consistent_rows :
    (∀ r : Snapshot, (∃ s, ofSnapshot r = .ok s) ↔ r.Consistent) ∧
      (∀ r r' : Snapshot, r.Perm r' → ∀ s, ofSnapshot r = .ok s ↔ ofSnapshot r' = .ok s) ∧
      (∀ (r : Snapshot) (s : Store), ofSnapshot r = .ok s → s.snapshot = r.sorted) ∧
      ∀ s : Store, s.Reachable → ofSnapshot s.snapshot = .ok s := by
  refine ⟨fun r => ?_, fun r r' hp s => ?_, fun r s h => ?_, fun s hs => ?_⟩
  · constructor
    · rintro ⟨s, h⟩
      exact (ofSnapshot_eq_ok_iff.mp h).1
    · intro h
      exact ⟨_, ofSnapshot_eq_ok_iff.mpr ⟨h, rfl⟩⟩
  · rw [ofSnapshot_eq_ok_iff, ofSnapshot_eq_ok_iff]
    constructor
    · rintro ⟨h, rfl⟩
      exact ⟨h.of_perm hp, ofRows_eq_of_perm h hp⟩
    · rintro ⟨h, rfl⟩
      exact ⟨h.of_perm hp.symm, ofRows_eq_of_perm h hp.symm⟩
  · obtain ⟨hr, rfl⟩ := ofSnapshot_eq_ok_iff.mp h
    exact snapshot_ofRows hr
  · exact ofSnapshot_eq_ok_iff.mpr ⟨hs.consistent, (ofRows_snapshot s).symm⟩

/-- Rows in no order, which are loaded like the same rows in another order; after one more request
the rows can be loaded again. -/
theorem unordered_rows_are_loaded_and_reloaded :
    ∃ (r r' : Snapshot) (s : Store) (w : Write),
      r = ⟨[⟨5, "Shop", 7, 1, .epoch⟩, ⟨3, "Shop", 8, 9, .epoch⟩],
        [⟨2, "Item", 3, 8, .epoch⟩, ⟨1, "item", 5, 7, .epoch⟩], [⟨4, 2, 8, "price", 42, true, none⟩],
        []⟩ ∧
      r' = ⟨r.projects.reverse, r.objects.reverse, r.attributes, r.actions⟩ ∧
      w = .createProject .epoch 7 ⟨"Café", .sailsJs⟩ ∧ r.Consistent ∧
      ofSnapshot r = .ok s ∧ ofSnapshot r' = .ok s ∧ r.sorted = r' ∧
      (w.run s).2.projects.rows.map ProjectRow.id = [3, 5, 6] ∧
      ofSnapshot (w.run s).2.snapshot = .ok (w.run s).2 := by
  let r : Snapshot := ⟨[⟨5, "Shop", 7, 1, .epoch⟩, ⟨3, "Shop", 8, 9, .epoch⟩],
    [⟨2, "Item", 3, 8, .epoch⟩, ⟨1, "item", 5, 7, .epoch⟩], [⟨4, 2, 8, "price", 42, true, none⟩], []⟩
  let r' : Snapshot := ⟨r.projects.reverse, r.objects.reverse, r.attributes, r.actions⟩
  let w : Write := .createProject .epoch 7 ⟨"Café", .sailsJs⟩
  obtain ⟨haccepts, horder, hsorted, hreload⟩ := loads_exactly_consistent_rows
  have hp : r.Perm r' :=
    ⟨(List.reverse_perm _).symm, (List.reverse_perm _).symm, .refl _, .refl _⟩
  have hload : ofSnapshot r = .ok (ofRows r) := by with_unfolding_all rfl
  have hroom : w.HasRoom (ofRows r) := fun _ => by
    show 5 + 1 < 2 ^ 64
    decide
  refine ⟨r, r', ofRows r, w, rfl, rfl, rfl, (haccepts r).mp ⟨_, hload⟩, hload,
    (horder r r' hp _).mp hload, (hsorted r _ hload).symm, rfl,
    hreload _ ((Reachable.loaded hload).written w hroom)⟩

end SchemaForge.Store
