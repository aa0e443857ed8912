import SchemaForge.Proofs.Except
import SchemaForge.Proofs.Store.Table
import SchemaForge.Store.Basic

/-!
# What the demands of the store say

The demands of the writing requests are chains of checks, and each of them is taken apart here once:
it is met exactly if all of its checks are. Later proofs speak of names that are valid and not taken,
not of the order in which they are looked at.
-/

namespace SchemaForge

theorem demand_eq_ok_iff {c : Checked} : demand c = .ok () ↔ c = .ok () :=
  mapError_eq_ok_iff

namespace Store

theorem refuseTaken_eq_ok_iff {entity : Entity} {taken : Bool} :
    refuseTaken entity taken = .ok () ↔ taken = false := by
  cases taken <;> simp [refuseTaken]

/-! ### Rows of the user -/

theorem project_eq_ok_iff {s : Store} {owner : UserId} {id : ProjectId} {row : ProjectRow} :
    s.project owner id = .ok row ↔ s.projects.find? id = some row ∧ row.owner = owner := by
  unfold project
  cases s.projects.find? id with
  | none => simp
  | some r =>
    by_cases h : r.owner = owner
    · simp only [h, if_true, Except.ok.injEq, Option.some.injEq]
      constructor
      · rintro rfl
        exact ⟨rfl, h⟩
      · exact And.left
    · simp only [h, if_false, Option.some.injEq]
      constructor
      · intro h
        cases h
      · rintro ⟨rfl, ho⟩
        exact absurd ho h

theorem object_eq_ok_iff {s : Store} {owner : UserId} {projectId : ProjectId} {id : ObjectId}
    {row : Object} :
    s.object owner projectId id = .ok row ↔
      (∃ p, s.project owner projectId = .ok p) ∧ s.objects.find? id = some row ∧
        row.owner = owner ∧ row.projectId = projectId := by
  unfold object
  rw [bind_eq_ok_iff]
  constructor
  · rintro ⟨p, hp, h⟩
    cases hf : s.objects.find? id with
    | none => simp [hf] at h
    | some r =>
      simp only [hf] at h
      split at h
      · next hr =>
        cases h
        exact ⟨⟨p, hp⟩, rfl, hr⟩
      · cases h
  · rintro ⟨⟨p, hp⟩, hf, hr⟩
    refine ⟨p, hp, ?_⟩
    simp [hf, hr]

/-- The project that is asked for is the row of the user under this number. -/
theorem mem_of_project_eq_ok {s : Store} {owner : UserId} {id : ProjectId} {row : ProjectRow}
    (h : s.project owner id = .ok row) :
    row ∈ s.projects.rows ∧ row.id = id ∧ row.owner = owner := by
  obtain ⟨hfind, howner⟩ := project_eq_ok_iff.mp h
  obtain ⟨hmem, hid⟩ := Table.find?_eq_some_iff.mp hfind
  exact ⟨hmem, hid, howner⟩

theorem mem_of_object_eq_ok {s : Store} {owner : UserId} {projectId : ProjectId} {id : ObjectId}
    {row : Object} (h : s.object owner projectId id = .ok row) :
    row ∈ s.objects.rows ∧ row.id = id ∧ row.owner = owner ∧ row.projectId = projectId := by
  obtain ⟨-, hfind, howner, hproject⟩ := object_eq_ok_iff.mp h
  obtain ⟨hmem, hid⟩ := Table.find?_eq_some_iff.mp hfind
  exact ⟨hmem, hid, howner, hproject⟩

/-! ### Names that are taken -/

theorem projectNameTaken_eq_false_iff {s : Store} {owner : UserId} {name : String}
    {except : Option ProjectId} :
    s.projectNameTaken owner name except = false ↔
      ∀ row ∈ s.projects.rows, some row.id ≠ except → ¬(row.owner = owner ∧ row.name = name) := by
  simp only [projectNameTaken, List.any_eq_false, Bool.and_eq_true, beq_iff_eq, bne_iff_ne]
  constructor
  · rintro h row hrow hid ⟨ho, hn⟩
    exact h row hrow ⟨⟨ho, hid⟩, hn⟩
  · rintro h row hrow ⟨⟨ho, hid⟩, hn⟩
    exact h row hrow hid ⟨ho, hn⟩

theorem objectNameTaken_eq_false_iff {s : Store} {projectId : ProjectId} {name : String} :
    s.objectNameTaken projectId name = false ↔
      ∀ row ∈ s.objects.rows,
        ¬(row.projectId = projectId ∧ Text.sameIgnoringCase row.name name = true) := by
  simp [objectNameTaken]

theorem attributeNameTaken_eq_false_iff {s : Store} {objectId : ObjectId} {name : String} :
    s.attributeNameTaken objectId name = false ↔
      ∀ row ∈ s.attributes.rows, ¬(row.objectId = objectId ∧ row.name = name) := by
  simp [attributeNameTaken]

theorem actionTaken_eq_false_iff {s : Store} {objectId : ObjectId} {identifier : String} :
    s.actionTaken objectId identifier = false ↔
      ∀ row ∈ s.actions.rows,
        ¬(row.action.objectId = objectId ∧ row.action.identifier = identifier) := by
  simp [actionTaken]

/-! ### Demands of the writing requests -/

theorem admitProject_eq_ok_iff {s : Store} {owner : UserId} {p : NewProject} :
    s.admitProject owner p = .ok () ↔
      Naming.checkProjectName p.name = .ok () ∧ s.projectNameTaken owner p.name none = false := by
  rw [admitProject, check_bind_eq_ok_iff, demand_eq_ok_iff, refuseTaken_eq_ok_iff]

theorem admitRename_eq_ok_iff {s : Store} {owner : UserId} {id : ProjectId} {name : String}
    {row : ProjectRow} :
    s.admitRename owner id name = .ok row ↔
      Naming.checkProjectName name = .ok () ∧ s.project owner id = .ok row ∧
        s.projectNameTaken owner name (some id) = false := by
  rw [admitRename, check_bind_eq_ok_iff, demand_eq_ok_iff, bind_eq_ok_iff]
  apply and_congr_right
  intro _
  constructor
  · rintro ⟨r, hr, h⟩
    rw [check_bind_eq_ok_iff, refuseTaken_eq_ok_iff] at h
    obtain ⟨ht, hrow⟩ := h
    cases hrow
    exact ⟨hr, ht⟩
  · rintro ⟨hr, ht⟩
    refine ⟨row, hr, ?_⟩
    rw [check_bind_eq_ok_iff, refuseTaken_eq_ok_iff]
    exact ⟨ht, rfl⟩

theorem admitObject_eq_ok_iff {s : Store} {owner : UserId} {projectId : ProjectId}
    {o : NewObject} :
    s.admitObject owner projectId o = .ok () ↔
      o.check = .ok () ∧ (∃ p, s.project owner projectId = .ok p) ∧
        s.objectNameTaken projectId o.name = false ∧ repeatedNames o.attributes = [] := by
  rw [admitObject, check_bind_eq_ok_iff, demand_eq_ok_iff, bind_eq_ok_iff]
  apply and_congr_right
  intro _
  simp only [check_bind_eq_ok_iff, refuseTaken_eq_ok_iff, Bool.not_eq_false', List.isEmpty_iff]
  constructor
  · rintro ⟨p, hp, h⟩
    exact ⟨⟨p, hp⟩, h⟩
  · rintro ⟨⟨p, hp⟩, h⟩
    exact ⟨p, hp, h⟩

theorem admitAction_eq_ok_iff {s : Store} {owner : UserId} {projectId : ProjectId}
    {objectId : ObjectId} {a : NewAction} :
    s.admitAction owner projectId objectId a = .ok () ↔
      a.check a.resolvedIdentifier = .ok () ∧ (∃ o, s.object owner projectId objectId = .ok o) ∧
        s.actionTaken objectId a.resolvedIdentifier = false := by
  rw [admitAction, check_bind_eq_ok_iff, demand_eq_ok_iff, bind_eq_ok_iff]
  apply and_congr_right
  intro _
  simp only [refuseTaken_eq_ok_iff]
  constructor
  · rintro ⟨o, ho, h⟩
    exact ⟨⟨o, ho⟩, h⟩
  · rintro ⟨⟨o, ho⟩, h⟩
    exact ⟨o, ho, h⟩

end Store

end SchemaForge
