import SchemaForge.Proofs.Store.Demands
import SchemaForge.Proofs.Store.Table
import SchemaForge.Store.Loading

/-!
# Requests that write

The six requests that may change a store, as one type, so that runs of them can be spoken of. A
request is refused, which changes nothing, or admitted; `run_of_refused` and `run_of_admitted` say
which it is by the demands of the request alone. `Reachable` are the stores that any run leads to.
-/

namespace SchemaForge.Store

/-- A request that may change the store. -/
inductive Write
  | createProject (now : Instant) (owner : UserId) (p : NewProject)
  | renameProject (owner : UserId) (id : ProjectId) (name : String)
  | deleteProject (owner : UserId) (id : ProjectId)
  | createObject (now : Instant) (owner : UserId) (projectId : ProjectId) (o : NewObject)
  | deleteObject (owner : UserId) (projectId : ProjectId) (id : ObjectId)
  | createAction (owner : UserId) (projectId : ProjectId) (objectId : ObjectId) (a : NewAction)

namespace Write

/-- The user who makes a request. -/
def user : Write → UserId
  | createProject _ owner _ | renameProject owner _ _ | deleteProject owner _
  | createObject _ owner _ _ | deleteObject owner _ _ | createAction owner _ _ _ => owner

/-- An outcome without the record that is answered. -/
def unanswered (r : Except StoreError α) : Except StoreError Unit := r.map fun _ => ()

/-- The outcome of a request, and the store after it. -/
def run (s : Store) : Write → Except StoreError Unit × Store
  | createProject now owner p => (s.createProject now owner p).map unanswered fun s => s
  | renameProject owner id name => (s.renameProject owner id name).map unanswered fun s => s
  | deleteProject owner id => s.deleteProject owner id
  | createObject now owner projectId o =>
    (s.createObject now owner projectId o).map unanswered fun s => s
  | deleteObject owner projectId id => s.deleteObject owner projectId id
  | createAction owner projectId objectId a =>
    (s.createAction owner projectId objectId a).map unanswered fun s => s

/-- The demands on a request. -/
def demands (s : Store) : Write → Except StoreError Unit
  | createProject _ owner p => s.admitProject owner p
  | renameProject owner id name => unanswered (s.admitRename owner id name)
  | deleteProject owner id => unanswered (s.project owner id)
  | createObject _ owner projectId o => s.admitObject owner projectId o
  | deleteObject owner projectId id => unanswered (s.object owner projectId id)
  | createAction owner projectId objectId a => s.admitAction owner projectId objectId a

/-- Are there numbers left for the rows that the request makes? A refused request makes none. -/
def HasRoom (s : Store) (w : Write) : Prop :=
  w.demands s = .ok () →
    match w with
    | createProject .. => s.projects.HasRoom 1
    | createObject _ _ _ o => s.objects.HasRoom 1 ∧ s.attributes.HasRoom o.attributes.length
    | createAction .. => s.actions.HasRoom 1
    | _ => True

@[simp]
theorem unanswered_ok (a : α) : unanswered (.ok a) = .ok () := rfl

@[simp]
theorem unanswered_error (e : StoreError) :
    unanswered (.error e : Except StoreError α) = .error e :=
  rfl

theorem unanswered_eq_ok_iff {r : Except StoreError α} :
    unanswered r = .ok () ↔ ∃ a, r = .ok a := by
  cases r <;> simp

theorem unanswered_eq_error_iff {r : Except StoreError α} {e : StoreError} :
    unanswered r = .error e ↔ r = .error e := by
  cases r <;> simp

/-- A request that its demands refuse changes nothing. -/
theorem run_of_refused {s : Store} {w : Write} {e : StoreError} (h : w.demands s = .error e) :
    w.run s = (.error e, s) := by
  cases w with
  | createProject now owner p =>
    simp only [demands] at h
    simp [run, Store.createProject, h]
  | renameProject owner id name =>
    have hrefused := unanswered_eq_error_iff.mp h
    simp [run, Store.renameProject, hrefused]
  | deleteProject owner id =>
    have hrefused := unanswered_eq_error_iff.mp h
    simp [run, Store.deleteProject, hrefused]
  | createObject now owner projectId o =>
    simp only [demands] at h
    simp [run, Store.createObject, h]
  | deleteObject owner projectId id =>
    have hrefused := unanswered_eq_error_iff.mp h
    simp [run, Store.deleteObject, hrefused]
  | createAction owner projectId objectId a =>
    simp only [demands] at h
    simp [run, Store.createAction, h]

/-! ### Renames of rows that cannot be read -/

/-- Does the request give a new name to a project whose row cannot be decoded? The name must be one
that the store accepts: valid, and not taken by another project of the owner. -/
def RenamesUnreadable (s : Store) : Write → Prop
  | renameProject owner id name =>
    ∃ row, s.project owner id = .ok row ∧ TargetLanguage.ofCode? row.languageCode = none ∧
      Naming.checkProjectName name = .ok () ∧ s.projectNameTaken owner name (some id) = false ∧
      name ≠ row.name
  | _ => False

theorem toProject_new (id : ProjectId) (p : NewProject) (owner : UserId) (now : Instant) :
    (ProjectRow.mk id p.name owner p.language.code now).toProject =
      .ok ⟨id, p.name, owner, p.language, now⟩ := by
  simp [ProjectRow.toProject, TargetLanguage.ofCode?_code]

/-- A request that is admitted succeeds, but for a rename, whose row may turn out to be corrupt. -/
theorem run_of_admitted {s : Store} {w : Write} (h : w.demands s = .ok ()) :
    (w.run s).1 = .ok () ∨
      ∃ owner id name row,
        w = .renameProject owner id name ∧ s.admitRename owner id name = .ok row ∧
        TargetLanguage.ofCode? row.languageCode = none := by
  cases w with
  | createProject now owner p =>
    left
    simp only [demands] at h
    simp [run, Store.createProject, h, toProject_new, decoded]
  | renameProject owner id name =>
    obtain ⟨row, hrow⟩ := unanswered_eq_ok_iff.mp h
    cases hl : TargetLanguage.ofCode? row.languageCode with
    | none => exact .inr ⟨owner, id, name, row, rfl, hrow, hl⟩
    | some language =>
      left
      simp [run, Store.renameProject, hrow, ProjectRow.toProject, hl, decoded]
  | deleteProject owner id =>
    left
    obtain ⟨row, hrow⟩ := unanswered_eq_ok_iff.mp h
    simp [run, Store.deleteProject, hrow]
  | createObject now owner projectId o =>
    left
    simp only [demands] at h
    simp [run, Store.createObject, h]
  | deleteObject owner projectId id =>
    left
    obtain ⟨row, hrow⟩ := unanswered_eq_ok_iff.mp h
    simp [run, Store.deleteObject, hrow]
  | createAction owner projectId objectId a =>
    left
    simp only [demands] at h
    simp [run, Store.createAction, h]

end Write

/-! ### Runs -/

/-- The stores that runs of requests lead to from the empty store or from one that is loaded, as long
as the numbers for new rows do not run out. -/
inductive Reachable : Store → Prop
  | empty : Reachable .empty
  | loaded {rows : Snapshot} {s : Store} : ofSnapshot rows = .ok s → Reachable s
  | written {s : Store} (w : Write) : Reachable s → w.HasRoom s → Reachable (w.run s).2

end SchemaForge.Store
