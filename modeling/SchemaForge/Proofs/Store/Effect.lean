import Mathlib.Data.List.Forall2
import SchemaForge.Proofs.Store.Write

/-!
# What a request does to the tables

`effect_of_run` says once what a request that writes can do: nothing, a row put at the place of its
number, or objects removed with all that belongs to them. What is proved about all requests is proved
by cases on `Write.Effect`, without a look at the demands that come first.
-/

namespace SchemaForge

namespace Store

/-! ### Objects removed -/

/-- The store without some objects and what belongs to them. -/
def withoutObjects (s : Store) (ids : List ObjectId) : Store :=
  { s with
    objects := s.objects.filter fun o => decide (o.id ∉ ids)
    attributes := s.attributes.filter fun row => decide (row.objectId ∉ ids)
    actions := s.actions.filter fun row => decide (row.action.objectId ∉ ids) }

/-- Rows that are kept one condition after the other are those that meet both. -/
theorem filter_of_cons [Numbered α] {t : Table α} (key : α → ObjectId) {id : ObjectId}
    {ids : List ObjectId} :
    (t.filter fun row => key row != id).filter (fun row => decide (key row ∉ ids)) =
      t.filter fun row => decide (key row ∉ id :: ids) := by
  apply Table.eq_of_mem_iff
  intro row
  simp only [Table.mem_filter_iff, bne_iff_ne, decide_eq_true_eq, List.mem_cons, not_or, and_assoc]

theorem foldl_removeObject_eq (ids : List ObjectId) (s : Store) :
    ids.foldl removeObject s = s.withoutObjects ids := by
  induction ids generalizing s with
  | nil =>
    have hall : ∀ {α : Type} [Numbered α] (t : Table α) (key : α → ObjectId),
        (t.filter fun row => decide (key row ∉ [])) = t := by
      intro α _ t key
      exact Table.eq_of_mem_iff fun row => by simp
    simp only [List.foldl_nil, withoutObjects, hall]
  | cons id rest ih =>
    rw [List.foldl_cons, ih]
    simp only [removeObject, removeChildren, withoutObjects, Table.erase]
    rw [filter_of_cons fun row : AttributeRow => row.objectId,
      filter_of_cons fun row : ActionRow => row.action.objectId]
    rw [show (fun row : Object => number row != id) = fun row => row.id != id from rfl,
      filter_of_cons Object.id]

theorem removeObject_eq (s : Store) (id : ObjectId) : s.removeObject id = s.withoutObjects [id] :=
  foldl_removeObject_eq [id] s

/-! ### Attributes added -/

/-- Is the row the one that an object gets for a new attribute, whatever its number? -/
def MadeFor (owner : UserId) (objectId : ObjectId) (row : AttributeRow) (a : NewAttribute) : Prop :=
  row = ⟨row.id, objectId, owner, a.name, a.type.code, a.required, a.description⟩

/-- New attributes are put behind the others, in their order. -/
theorem rows_addAttributes (owner : UserId) (objectId : ObjectId) {attributes : List NewAttribute}
    {table : Table AttributeRow} (hroom : table.HasRoom attributes.length) :
    ∃ rows, (addAttributes owner objectId table attributes).rows = table.rows ++ rows ∧
      List.Forall₂ (MadeFor owner objectId) rows attributes := by
  induction attributes generalizing table with
  | nil => exact ⟨[], (List.append_nil _).symm, .nil⟩
  | cons a rest ih =>
    let row : AttributeRow :=
      ⟨table.nextNumber, objectId, owner, a.name, a.type.code, a.required, a.description⟩
    have hrest : (table.insert row).HasRoom rest.length := hroom.insert_new rfl
    obtain ⟨rows, hrows, hmade⟩ := ih hrest
    refine ⟨row :: rows, ?_, .cons rfl hmade⟩
    show (addAttributes owner objectId (table.insert row) rest).rows = _
    rw [hrows, Table.rows_insert_new hroom.one rfl, List.append_assoc]
    rfl

/-- Whatever is among them was there or is made for one of the new attributes. -/
theorem mem_addAttributes {owner : UserId} {objectId : ObjectId} {attributes : List NewAttribute}
    {table : Table AttributeRow} {row : AttributeRow}
    (h : row ∈ (addAttributes owner objectId table attributes).rows) :
    row ∈ table.rows ∨ ∃ a ∈ attributes, MadeFor owner objectId row a := by
  induction attributes generalizing table with
  | nil => exact .inl h
  | cons a rest ih =>
    rcases ih h with hrow | ⟨b, hb, hmade⟩
    · rcases Table.mem_insert_iff.mp hrow with rfl | ⟨hrow, -⟩
      · exact .inr ⟨a, List.mem_cons_self, rfl⟩
      · exact .inl hrow
    · exact .inr ⟨b, List.mem_cons_of_mem _ hb, hmade⟩

/-! ### All requests -/

namespace Write

/-- What a request can make of a store. -/
inductive Effect (s : Store) : Write → Store → Prop
  | none {w : Write} : Effect s w s
  | createProject {now : Instant} {owner : UserId} {p : NewProject}
      (admitted : s.admitProject owner p = .ok ()) :
      Effect s (.createProject now owner p)
        { s with
          projects :=
            s.projects.insert ⟨s.projects.nextNumber, p.name, owner, p.language.code, now⟩ }
  | renameProject {owner : UserId} {id : ProjectId} {name : String} {row : ProjectRow}
      (admitted : s.admitRename owner id name = .ok row) :
      Effect s (.renameProject owner id name)
        { s with projects := s.projects.insert { row with name } }
  | deleteProject {owner : UserId} {id : ProjectId} :
      Effect s (.deleteProject owner id)
        { s.withoutObjects ((s.objects.rows.filter fun o => o.projectId == id).map Object.id) with
          projects := s.projects.erase id }
  | createObject {now : Instant} {owner : UserId} {projectId : ProjectId} {o : NewObject}
      (admitted : s.admitObject owner projectId o = .ok ()) :
      Effect s (.createObject now owner projectId o)
        { s with
          objects := s.objects.insert ⟨s.objects.nextNumber, o.name, projectId, owner, now⟩
          attributes :=
            addAttributes owner s.objects.nextNumber s.attributes o.attributes }
  | deleteObject {owner : UserId} {projectId : ProjectId} {id : ObjectId} :
      Effect s (.deleteObject owner projectId id) (s.withoutObjects [id])
  | createAction {owner : UserId} {projectId : ProjectId} {objectId : ObjectId} {a : NewAction}
      (admitted : s.admitAction owner projectId objectId a = .ok ()) :
      Effect s (.createAction owner projectId objectId a)
        { s with
          actions :=
            s.actions.insert
              ⟨owner, s.actions.nextNumber, objectId, a.friendlyName, a.resolvedIdentifier, a.method,
                a.route, a.description, a.returnValues⟩ }

theorem effect_of_run {s s' : Store} {w : Write} (h : (w.run s).2 = s') : Effect s w s' := by
  subst h
  -- a refused request changes nothing: the requests differ only where their demands are met
  cases hmet : w.demands s with
  | error e =>
    rw [run_of_refused hmet]
    exact .none
  | ok u =>
    cases w with
    | createProject now owner p =>
      replace hmet : s.admitProject owner p = .ok () := hmet
      simp only [run, Store.createProject, hmet]
      exact .createProject hmet
    | renameProject owner id name =>
      obtain ⟨row, hrow⟩ := unanswered_eq_ok_iff.mp hmet
      simp only [run, Store.renameProject, hrow]
      exact .renameProject hrow
    | deleteProject owner id =>
      obtain ⟨row, hrow⟩ := unanswered_eq_ok_iff.mp hmet
      simp only [run, Store.deleteProject, hrow, foldl_removeObject_eq]
      exact .deleteProject
    | createObject now owner projectId o =>
      replace hmet : s.admitObject owner projectId o = .ok () := hmet
      simp only [run, Store.createObject, hmet]
      exact .createObject hmet
    | deleteObject owner projectId id =>
      obtain ⟨row, hrow⟩ := unanswered_eq_ok_iff.mp hmet
      simp only [run, Store.deleteObject, hrow, removeObject_eq]
      exact .deleteObject
    | createAction owner projectId objectId a =>
      replace hmet : s.admitAction owner projectId objectId a = .ok () := hmet
      simp only [run, Store.createAction, hmet]
      exact .createAction hmet

end Write

end Store

end SchemaForge
