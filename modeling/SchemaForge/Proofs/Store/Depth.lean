import SchemaForge.Proofs.Except
import SchemaForge.Store.Dump

/-!
# How deep a dump is nested

Only the literals of return values are of any depth. In a dump a literal stands inside of five arrays
and objects: its return value, the list of those, the row of the action, the list of rows and the
dump itself.
-/

namespace SchemaForge

open Json

/-! ### Depth of arrays and objects -/

theorem Json.depthItems_le_iff {items : List Json} {n : Nat} :
    depthItems items ≤ n ↔ ∀ j ∈ items, j.depth ≤ n := by
  induction items with
  | nil => simp [depthItems]
  | cons j items ih => rw [depthItems, Nat.max_le, ih, List.forall_mem_cons]

theorem Codec.depth_list_le_iff {c : Codec α} {as : List α} {n : Nat} :
    ((list c).encode as).depth ≤ n + 1 ↔ ∀ a ∈ as, (c.encode a).depth ≤ n := by
  rw [list, depth, Nat.add_comm 1, Nat.succ_le_succ_iff, depthItems_le_iff, List.forall_mem_map]

/-- Is every value flat, but for one array or object? -/
def Codec.Shallow (c : Codec α) : Prop := ∀ a, (c.encode a).depth ≤ 1

theorem Codec.Shallow.depth_list_le {c : Codec α} (h : c.Shallow) (as : List α) :
    ((list c).encode as).depth ≤ 2 :=
  depth_list_le_iff.mpr fun a _ => h a

theorem ResultOptions.shallow : ResultOptions.codec.Shallow := by
  rintro ⟨pageSize, sortBy, direction, filter⟩
  cases pageSize <;> cases sortBy <;> cases filter <;> exact Nat.le_refl 1

theorem ProjectRow.shallow (now : Instant) : (ProjectRow.codec now).Shallow := fun _ => Nat.le_refl 1

theorem Object.shallow_row (now : Instant) : (Object.rowCodec now).Shallow := fun _ => Nat.le_refl 1

theorem AttributeRow.shallow : AttributeRow.codec.Shallow := by
  rintro ⟨id, objectId, owner, name, type, required, description⟩
  cases description <;> exact Nat.le_refl 1

/-! ### Literals -/

/-- Is a literal of at most this depth, if the value is one? -/
def ReturnValue.LiteralWithin (n : Nat) : ReturnValue → Prop
  | literal value => value.depth ≤ n
  | query _ _ | attributeValue _ _ => True

instance (n : Nat) : (v : ReturnValue) → Decidable (v.LiteralWithin n)
  | .literal value => inferInstanceAs (Decidable (value.depth ≤ n))
  | .query _ _ | .attributeValue _ _ => inferInstanceAs (Decidable True)

variable {n : Nat}

theorem ReturnValue.depth_le_iff {v : ReturnValue} :
    (codec.encode v).depth ≤ n + 2 ↔ v.LiteralWithin (n + 1) := by
  have hlookup : ∀ options : ResultOptions,
      1 + max 0 (max 0 (max (ResultOptions.codec.encode options).depth 0)) ≤ n + 2 := by
    intro options
    have hoptions := ResultOptions.shallow options
    omega
  cases v with
  | literal value =>
    show 1 + max 0 (max value.depth 0) ≤ n + 2 ↔ value.depth ≤ n + 1
    omega
  | query source options => exact iff_of_true (hlookup options) trivial
  | attributeValue name options => exact iff_of_true (hlookup options) trivial

theorem ActionRow.depth_le_iff {row : ActionRow} :
    (codec.encode row).depth ≤ n + 4 ↔
      ∀ v ∈ row.action.returnValues, v.LiteralWithin (n + 1) := by
  obtain ⟨owner, id, objectId, friendlyName, identifier, method, route, description, values⟩ := row
  have hvalues : ((Codec.list ReturnValue.codec).encode values).depth ≤ n + 3 ↔
      ∀ v ∈ values, v.LiteralWithin (n + 1) :=
    Codec.depth_list_le_iff.trans (forall₂_congr fun _ _ => ReturnValue.depth_le_iff)
  rw [← hvalues]
  -- beside the return values there are only numbers and texts
  have hmembers : (codec.encode ⟨owner, id, objectId, friendlyName, identifier, method, route,
      description, values⟩).depth =
        1 + max ((Codec.list ReturnValue.codec).encode values).depth 0 := by
    cases description <;> rfl
  rw [hmembers]
  omega

/-- Are all literals of a store of at most this depth? -/
def Store.LiteralsWithin (s : Store) (n : Nat) : Prop :=
  ∀ row ∈ s.actions.rows, ∀ v ∈ row.action.returnValues, v.LiteralWithin n

instance (s : Store) (n : Nat) : Decidable (s.LiteralsWithin n) :=
  inferInstanceAs (Decidable (∀ row ∈ s.actions.rows, ∀ v ∈ row.action.returnValues, v.LiteralWithin n))

/-- A dump is nested five levels deeper than its literals. -/
theorem Store.depth_dumpValue_le_iff {s : Store} :
    s.dumpValue.depth ≤ n + 6 ↔ s.LiteralsWithin (n + 1) := by
  have hprojects := (ProjectRow.shallow .epoch).depth_list_le s.projects.rows
  have hobjects := (Object.shallow_row .epoch).depth_list_le s.objects.rows
  have hattributes := AttributeRow.shallow.depth_list_le s.attributes.rows
  have hactions : ((Codec.list ActionRow.codec).encode s.actions.rows).depth ≤ n + 5 ↔
      s.LiteralsWithin (n + 1) :=
    Codec.depth_list_le_iff.trans (forall₂_congr fun _ _ => ActionRow.depth_le_iff)
  rw [← hactions]
  show 1 + max ((Codec.list (ProjectRow.codec .epoch)).encode s.projects.rows).depth
    (max ((Codec.list (Object.rowCodec .epoch)).encode s.objects.rows).depth
      (max ((Codec.list AttributeRow.codec).encode s.attributes.rows).depth
        (max ((Codec.list ActionRow.codec).encode s.actions.rows).depth 0))) ≤ n + 6 ↔ _
  omega

end SchemaForge
