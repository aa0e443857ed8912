import Mathlib.Data.List.Forall2
import SchemaForge.Proofs.Except
import SchemaForge.Store.Basic

/-!
# Lists of rows

What the store lists are rows of one table, in the order of their numbers, and each is decoded. A list
that is answered has exactly one record for each of the rows.
-/

namespace SchemaForge

theorem ProjectRow.id_of_toProject {row : ProjectRow} {p : Project} (h : row.toProject = .ok p) :
    p.id = row.id := by
  unfold toProject at h
  split at h
  · exact (Except.ok.inj h) ▸ rfl
  · cases h

theorem ProjectRow.name_of_toProject {row : ProjectRow} {p : Project} (h : row.toProject = .ok p) :
    p.name = row.name := by
  unfold toProject at h
  split at h
  · exact (Except.ok.inj h) ▸ rfl
  · cases h

theorem AttributeRow.name_of_toAttribute {row : AttributeRow} {a : Attribute}
    (h : row.toAttribute = .ok a) : a.name = row.name := by
  unfold toAttribute at h
  split at h
  · exact (Except.ok.inj h) ▸ rfl
  · cases h

theorem AttributeRow.id_of_toAttribute {row : AttributeRow} {a : Attribute}
    (h : row.toAttribute = .ok a) : a.id = row.id := by
  unfold toAttribute at h
  split at h
  · exact (Except.ok.inj h) ▸ rfl
  · cases h

namespace Store

variable {s : Store} {id : ProjectId}

/-- The objects of a project. -/
def objectsOf (s : Store) (id : ProjectId) : List Object :=
  s.objects.rows.filter fun o => o.projectId == id

/-- The attributes of an object. -/
def attributesOf (s : Store) (id : ObjectId) : Except StoreError (List Attribute) :=
  decodedAll AttributeRow.toAttribute (s.attributes.rows.filter fun row => row.objectId == id)

theorem ascending_objectsOf (s : Store) (id : ProjectId) :
    (s.objectsOf id).Pairwise fun a b => a.id < b.id :=
  s.objects.ascending.filter _

theorem mem_objectsOf_iff {o : Object} :
    o ∈ s.objectsOf id ↔ o ∈ s.objects.rows ∧ o.projectId = id := by
  rw [objectsOf, List.mem_filter, beq_iff_eq]

/-! ### Decoded rows -/

variable {ρ α β : Type} {decode : ρ → Except CorruptRow α} {rows : List ρ} {as : List α}

theorem decodedAll_eq_ok_iff :
    decodedAll decode rows = .ok as ↔ List.Forall₂ (fun row a => decode row = .ok a) rows as := by
  induction rows generalizing as with
  | nil =>
    rw [List.forall₂_nil_left_iff]
    exact ⟨fun h => (Except.ok.inj h).symm, fun h => h ▸ rfl⟩
  | cons row rest ih =>
    rw [decodedAll, bind_eq_ok_iff, List.forall₂_cons_left_iff]
    constructor
    · rintro ⟨a, ha, h⟩
      obtain ⟨as', has, h⟩ := bind_eq_ok_iff.mp h
      exact ⟨a, as', mapError_eq_ok_iff.mp ha, ih.mp has, (Except.ok.inj h).symm⟩
    · rintro ⟨a, as', ha, has, rfl⟩
      refine ⟨a, mapError_eq_ok_iff.mpr ha, ?_⟩
      rw [ih.mpr has]
      rfl

theorem mem_decodedAll_iff (h : decodedAll decode rows = .ok as) {a : α} :
    a ∈ as ↔ ∃ row ∈ rows, decode row = .ok a := by
  induction decodedAll_eq_ok_iff.mp h with
  | nil => simp
  | @cons row b rows as hb hrest ih =>
    rw [List.mem_cons, ih (decodedAll_eq_ok_iff.mpr hrest), List.exists_mem_cons_iff, hb,
      Except.ok.injEq, eq_comm]

/-- What decoding keeps of each row is the same for the list. -/
theorem map_of_decodedAll {f : α → β} {g : ρ → β} (h : decodedAll decode rows = .ok as)
    (hkeeps : ∀ {row a}, decode row = .ok a → f a = g row) : as.map f = rows.map g := by
  induction decodedAll_eq_ok_iff.mp h with
  | nil => rfl
  | cons ha hrest ih =>
    rw [List.map_cons, List.map_cons, hkeeps ha, ih (decodedAll_eq_ok_iff.mpr hrest)]

theorem ascending_attributesOf {object : ObjectId} {attributes : List Attribute}
    (h : s.attributesOf object = .ok attributes) :
    attributes.Pairwise fun a b => a.id < b.id := by
  have hrows : (s.attributes.rows.filter fun row => row.objectId == object).Pairwise
      fun a b => a.id < b.id := s.attributes.ascending.filter _
  rw [← List.pairwise_map, map_of_decodedAll h AttributeRow.id_of_toAttribute, List.pairwise_map]
  exact hrows

end Store

end SchemaForge
