import SchemaForge.Proofs.Store.Write
import SchemaForge.Service.Basic

/-!
# Failed requests

A request that fails leaves the store as it was, with one exception: a rename writes the new name
before it decodes the row, so if the row is corrupt the name is changed and the request fails all the
same. The exception is exact, for the requests of the store as well as for those of the service.
-/

namespace SchemaForge

namespace Store.Write

theorem run_renameProject_of_unreadable {s : Store} {owner : UserId} {id : ProjectId}
    {name : String} {row : ProjectRow} (h : s.admitRename owner id name = .ok row)
    (hl : TargetLanguage.ofCode? row.languageCode = none) :
    (renameProject owner id name).run s =
      (.error (.corrupt ⟨.project, row.id, .unknownLanguage row.languageCode⟩),
        { s with projects := s.projects.insert { row with name } }) := by
  simp [run, Store.renameProject, h, ProjectRow.toProject, hl, decoded]

/-- A new name for a row makes a different store. -/
theorem insert_renamed_ne {s : Store} {row : ProjectRow} {name : String}
    (hrow : row ∈ s.projects.rows) (hname : name ≠ row.name) :
    { s with projects := s.projects.insert { row with name } } ≠ s := by
  intro heq
  have hprojects : s.projects.insert { row with name } = s.projects := congrArg Store.projects heq
  have hnew : { row with name } ∈ s.projects.rows := by
    rw [← hprojects]
    exact Table.mem_insert_iff.mpr (.inl rfl)
  have hsame : { row with name } = row := Table.eq_of_number_eq hnew hrow rfl
  exact hname (congrArg ProjectRow.name hsame)

/-- A request fails and changes the store exactly if it renames a row that cannot be decoded. -/
theorem fails_with_change_iff (s : Store) (w : Write) :
    ((∃ e, (w.run s).1 = .error e) ∧ (w.run s).2 ≠ s) ↔ w.RenamesUnreadable s := by
  constructor
  · rintro ⟨⟨e, he⟩, hchange⟩
    cases hmet : w.demands s with
    | error e' =>
      rw [run_of_refused hmet] at hchange
      exact absurd rfl hchange
    | ok u =>
      rcases run_of_admitted hmet with hok | ⟨owner, id, name, row, rfl, hrow, hl⟩
      · rw [hok] at he
        cases he
      · obtain ⟨hn, hp, ht⟩ := admitRename_eq_ok_iff.mp hrow
        refine ⟨row, hp, hl, hn, ht, ?_⟩
        -- the old name put back is no change
        rintro rfl
        rw [run_renameProject_of_unreadable hrow hl] at hchange
        have hmem := (mem_of_project_eq_ok hp).1
        apply hchange
        show { s with projects := s.projects.insert row } = s
        rw [Table.insert_eq_self hmem]
  · intro h
    cases w with
    | renameProject owner id name =>
      obtain ⟨row, hp, hl, hn, ht, hname⟩ := h
      have hrow : s.admitRename owner id name = .ok row :=
        admitRename_eq_ok_iff.mpr ⟨hn, hp, ht⟩
      have hmem := (mem_of_project_eq_ok hp).1
      rw [run_renameProject_of_unreadable hrow hl]
      exact ⟨⟨_, rfl⟩, insert_renamed_ne hmem hname⟩
    | createProject | deleteProject | createObject | deleteObject | createAction => exact h.elim

end Store.Write

/-! ### Requests to the service -/

namespace Service

/-- What a command asks of the store, if it may change the store. -/
def write? (now : Instant) (user : UserId) : Command → Option Store.Write
  | .createProject p => some (.createProject now user p)
  | .renameProject id name => some (.renameProject user id name)
  | .deleteProject id => some (.deleteProject user id)
  | .createObject project o => some (.createObject now user project o)
  | .deleteObject project id => some (.deleteObject user project id)
  | .createAction project object a => some (.createAction user project object a)
  | .listProjects | .getProject _ | .download _ | .listObjects _ | .getObject _ _
  | .listActions _ _ => none

theorem writing_store (w : Service) (r : Except StoreError α × Store) (answer : α → Response) :
    (w.writing r answer).2.store = r.2 := by
  obtain ⟨outcome, s⟩ := r
  cases outcome <;> rfl

theorem unanswered_unit (r : Except StoreError Unit) : Store.Write.unanswered r = r := by
  cases r <;> rfl

theorem writing_fails_iff (w : Service) (r : Except StoreError α × Store) (answer : α → Response) :
    (∃ e, (w.writing r answer).1 = .error e) ↔ ∃ e, Store.Write.unanswered r.1 = .error e := by
  obtain ⟨outcome, s⟩ := r
  cases outcome <;> simp [writing]

/-- A command that writes has the outcome and the effect of the request to the store. -/
theorem perform_of_write {now : Instant} {user : UserId} {c : Command} {x : Store.Write}
    (h : write? now user c = some x) (w : Service) :
    (w.perform now user c).2.store = (x.run w.store).2 ∧
      ((∃ e, (w.perform now user c).1 = .error e) ↔ ∃ e, (x.run w.store).1 = .error e) := by
  cases c with
  | createProject | renameProject | createObject | createAction =>
    cases h
    simp only [perform, Store.Write.run, Prod.map_fst, Prod.map_snd]
    exact ⟨writing_store .., writing_fails_iff ..⟩
  | deleteProject | deleteObject =>
    cases h
    refine ⟨writing_store .., (writing_fails_iff ..).trans ?_⟩
    rw [unanswered_unit]
    rfl
  | listProjects | getProject | download | listObjects | getObject | listActions => cases h

/-- All other commands leave the store as it is. -/
theorem perform_of_not_write {now : Instant} {user : UserId} {c : Command}
    (h : write? now user c = none) (w : Service) : (w.perform now user c).2.store = w.store := by
  cases c with
  | download id =>
    simp only [perform, download]
    split <;> rfl
  | listProjects | getProject | listObjects | getObject | listActions => rfl
  | createProject | renameProject | deleteProject | createObject | deleteObject | createAction =>
    cases h

/-- A command fails and changes the store exactly if it renames a row that cannot be decoded. -/
theorem perform_with_change_iff (w : Service) (now : Instant) (user : UserId) (c : Command) :
    ((∃ e, (w.perform now user c).1 = .error e) ∧ (w.perform now user c).2.store ≠ w.store) ↔
      ∃ id name, c = .renameProject id name ∧
        (Store.Write.renameProject user id name).RenamesUnreadable w.store := by
  rcases hw : write? now user c with _ | x
  · -- the store stays as it is, and the command is no rename
    rw [perform_of_not_write hw]
    constructor
    · rintro ⟨_, hne⟩
      exact absurd rfl hne
    · rintro ⟨id, name, rfl, _⟩
      cases hw
  · -- the command fails and changes the store as its request to the store does
    obtain ⟨hafter, hfails⟩ := perform_of_write hw w
    rw [hafter, hfails, Store.Write.fails_with_change_iff]
    constructor
    · intro hx
      cases c with
      | renameProject id name =>
        cases hw
        exact ⟨id, name, rfl, hx⟩
      | createProject | deleteProject | createObject | deleteObject | createAction =>
        cases hw
        exact hx.elim
      | listProjects | getProject | download | listObjects | getObject | listActions => cases hw
    · rintro ⟨id, name, rfl, hx⟩
      cases hw
      exact hx

/-! ### Status -/

theorem reading_status {r : Except StoreError α} {members : α → List (String × Json)}
    {response : Response} (h : reading r members = .ok response) : response.status < 400 := by
  cases r with
  | error e => cases h
  | ok a =>
    cases h
    show 200 < 400
    decide

theorem writing_status {w : Service} {r : Except StoreError α × Store} {answer : α → Response}
    {response : Response} (hanswer : ∀ a, (answer a).status < 400)
    (h : (w.writing r answer).1 = .ok response) : response.status < 400 := by
  obtain ⟨outcome, s⟩ := r
  cases outcome with
  | error e => cases h
  | ok a =>
    cases h
    exact hanswer a

/-- A command that succeeds is answered with a status that says so. -/
theorem perform_status {w : Service} {now : Instant} {user : UserId} {c : Command}
    {response : Response} (h : (w.perform now user c).1 = .ok response) :
    response.status < 400 := by
  cases c with
  | listProjects | getProject | listObjects | getObject | listActions => exact reading_status h
  | createProject | renameProject | deleteProject | createObject | deleteObject | createAction =>
    refine writing_status (fun a => ?_) h
    simp [Response.ok, Response.created, Response.ofJson]
  | download id =>
    simp only [perform, download] at h
    split at h
    · cases h
      show 200 < 400
      decide
    · cases h

theorem le_status (e : ApiError) : 400 ≤ e.response.status := by
  show 400 ≤ e.status
  cases e <;> simp [ApiError.status]

/-- A request is answered with a status of an error exactly if it is refused or its command fails. -/
theorem answer_status_iff (w : Service) (now : Instant) (r : Request) :
    400 ≤ (w.answer now r).1.status ↔
      (∃ e, r.demand = .error e) ∨
        ∃ user c e, r.demand = .ok (.command user c) ∧ (w.perform now user c).1 = .error e := by
  unfold answer
  cases hd : r.demand with
  | error e => simp [le_status]
  | ok d =>
    cases d with
    | preflight => simp [Response.empty]
    | command user c =>
      show 400 ≤ (respond (w.perform now user c).1).status ↔ _
      cases hp : (w.perform now user c).1 with
      | error e => exact ⟨fun _ => .inr ⟨user, c, e, rfl, hp⟩, fun _ => le_status e⟩
      | ok response =>
        have hlt : response.status < 400 := perform_status hp
        constructor
        · intro hle
          exact absurd hle (Nat.not_le_of_lt hlt)
        · rintro (⟨e, he⟩ | ⟨user', c', e, heq, he⟩)
          · cases he
          · cases heq
            rw [hp] at he
            cases he

end Service

/-- Does a request come to a rename of a row that cannot be decoded? -/
def Request.RenamesUnreadable (r : Request) (s : Store) : Prop :=
  ∃ user id name, r.demand = .ok (.command user (.renameProject id name)) ∧
    (Store.Write.renameProject user id name).RenamesUnreadable s

namespace Service

/-- A request that is refused or fails changes the store exactly if it renames a row that cannot be
decoded. -/
theorem answers_with_change_iff (w : Service) (now : Instant) (r : Request) :
    (400 ≤ (w.answer now r).1.status ∧ (w.answer now r).2.store ≠ w.store) ↔
      r.RenamesUnreadable w.store := by
  rw [answer_status_iff]
  rcases hd : r.demand with e | _ | ⟨user, c⟩
  · have hstore : (w.answer now r).2.store = w.store := by simp [answer, hd]
    simp [hstore, Request.RenamesUnreadable, hd]
  · simp [Request.RenamesUnreadable, hd]
  · have hstore : (w.answer now r).2.store = (w.perform now user c).2.store := by
      simp [answer, hd]
    rw [hstore]
    constructor
    · rintro ⟨⟨e, he⟩ | ⟨user', c', e, heq, he⟩, hne⟩
      · cases he
      · cases heq
        obtain ⟨id, name, rfl, hx⟩ := (w.perform_with_change_iff now user c).mp ⟨⟨e, he⟩, hne⟩
        exact ⟨user, id, name, hd, hx⟩
    · rintro ⟨user', id, name, heq, hx⟩
      rw [hd] at heq
      cases heq
      obtain ⟨⟨e, he⟩, hne⟩ := (w.perform_with_change_iff now user _).mpr ⟨id, name, rfl, hx⟩
      exact ⟨.inr ⟨user, _, e, rfl, he⟩, hne⟩

end Service

/-! ### The exact exception -/

/-- Whatever the store and the request, a request that fails leaves all tables as they were, unless
it gives a valid, free and different name to a project whose language code is unknown; such a request
fails and changes the name. The same holds for requests to the service that are answered with a
status of 400 or more. -/
theorem failures_change_nothing_but_unreadable_names (s : Store) (w : Store.Write) (v : Service)
    (now : Instant) (r : Request) :
    (((∃ e, (w.run s).1 = .error e) ∧ (w.run s).2 ≠ s) ↔ w.RenamesUnreadable s) ∧
      ((400 ≤ (v.answer now r).1.status ∧ (v.answer now r).2.store ≠ v.store) ↔
        r.RenamesUnreadable v.store) :=
  ⟨w.fails_with_change_iff s, v.answers_with_change_iff now r⟩

/-- A store that is loaded with a project in an unknown language renames it although the request
fails. -/
theorem failed_rename_changes_name :
    ∃ (rows : Snapshot) (s : Store), rows.projects = [⟨3, "Shop", 7, 2, .epoch⟩] ∧
      Store.ofSnapshot rows = .ok s ∧
      ((Store.Write.renameProject 7 3 "New").run s).1 =
        .error (.corrupt ⟨.project, 3, .unknownLanguage 2⟩) ∧
      s.projects.rows.map ProjectRow.name = ["Shop"] ∧
      ((Store.Write.renameProject 7 3 "New").run s).2.projects.rows.map ProjectRow.name = ["New"] :=
  ⟨⟨[⟨3, "Shop", 7, 2, .epoch⟩], [], [], []⟩,
    ⟨⟨[⟨3, "Shop", 7, 2, .epoch⟩], List.pairwise_singleton ..⟩, .empty, .empty, .empty⟩,
    rfl, rfl, rfl, rfl, rfl⟩

end SchemaForge
