import Mathlib.Data.List.Perm.Basic
import SchemaForge.Json.Value
import SchemaForge.Proofs.Lookup

/-!
# Members in canonical form

Sorting the members of an object, none of which has the key of another, changes their order and
nothing else: a key finds the value that it found before, in canonical form.
-/

namespace SchemaForge.Json

variable {members : List (String × Json)} {key : String}

theorem canonicalItems_eq_map (items : List Json) : canonicalItems items = items.map canonical := by
  induction items with
  | nil => rfl
  | cons j items ih => rw [canonicalItems, ih, List.map_cons]

/-- Members with their values in canonical form, in the order in which they stand. -/
def withCanonicalValues (members : List (String × Json)) : List (String × Json) :=
  members.map fun m => (m.1, m.2.canonical)

theorem keys_withCanonicalValues :
    (withCanonicalValues members).map Prod.fst = members.map Prod.fst :=
  List.map_map

theorem lookup_withCanonicalValues :
    (withCanonicalValues members).lookup key = (members.lookup key).map canonical := by
  induction members with
  | nil => rfl
  | cons m members ih =>
    obtain ⟨k, v⟩ := m
    rw [withCanonicalValues, List.map_cons, List.lookup_cons, List.lookup_cons]
    cases key == k
    · exact ih
    · rfl

/-! ### Order -/

/-- A new member is put among the others. -/
theorem putMember_perm {value : Json} (h : key ∉ members.map Prod.fst) :
    (putMember key value members).Perm ((key, value) :: members) := by
  fun_induction putMember key value members with
  | case1 => exact .refl _
  | case2 k v rest hlt => exact .refl _
  | case3 v rest hlt => exact absurd List.mem_cons_self h
  | case4 k v rest hlt hne ih =>
    have hrest : key ∉ rest.map Prod.fst := fun hmem => h (List.mem_cons_of_mem _ hmem)
    exact ((ih hrest).cons (k, v)).trans (.swap _ _ _)

theorem canonicalMembers_perm_append {sorted : List (String × Json)}
    (h : ((sorted ++ members).map Prod.fst).Nodup) :
    (canonicalMembers sorted members).Perm (sorted ++ withCanonicalValues members) := by
  induction members generalizing sorted with
  | nil =>
    rw [canonicalMembers, withCanonicalValues, List.map_nil, List.append_nil]
  | cons m members ih =>
    obtain ⟨k, v⟩ := m
    have hmiddle : (sorted ++ (k, v) :: members).Perm ((k, v) :: sorted ++ members) :=
      List.perm_middle
    have hnodup := (hmiddle.map Prod.fst).nodup_iff.mp h
    have hfresh : k ∉ sorted.map Prod.fst := by
      rw [List.cons_append, List.map_cons, List.nodup_cons, List.map_append] at hnodup
      exact fun hmem => hnodup.1 (List.mem_append_left _ hmem)
    have hput : (putMember k v.canonical sorted).Perm ((k, v.canonical) :: sorted) :=
      putMember_perm hfresh
    have hkeys : ((putMember k v.canonical sorted ++ members).map Prod.fst).Nodup :=
      ((hput.append_right members).map Prod.fst).nodup_iff.mpr hnodup
    rw [canonicalMembers]
    refine (ih hkeys).trans ((hput.append_right _).trans ?_)
    exact List.perm_middle.symm

/-- Members of different keys are sorted, and their values are put in canonical form. -/
theorem canonicalMembers_perm (h : (members.map Prod.fst).Nodup) :
    (canonicalMembers [] members).Perm (withCanonicalValues members) :=
  canonicalMembers_perm_append h

theorem nodup_keys_canonicalMembers (h : (members.map Prod.fst).Nodup) :
    ((canonicalMembers [] members).map Prod.fst).Nodup := by
  rw [((canonicalMembers_perm h).map Prod.fst).nodup_iff, keys_withCanonicalValues]
  exact h

/-- What a key finds does not depend on the order. -/
theorem member?_canonicalMembers (h : (members.map Prod.fst).Nodup) :
    member? key (canonicalMembers [] members) = (member? key members).map canonical := by
  rw [member?, member?, ← lookup_withCanonicalValues]
  refine Option.ext fun v => ?_
  rw [lookup_eq_some_iff_of_nodup (nodup_keys_canonicalMembers h),
    (canonicalMembers_perm h).mem_iff, lookup_eq_some_iff_of_nodup]
  rwa [keys_withCanonicalValues]

end SchemaForge.Json
