import SchemaForge.Compile.Run
import SchemaForge.Proofs.Store.Invariant

/-!
# Rows of one owner

What a user is answered depends on the rows of that user alone, and what a user writes leaves the
rows of others as they are. Several requests look for rows by the number of a parent and not by the
owner; consistency is what makes the rows that they find rows of the user.
-/

namespace SchemaForge.Store

/-! ### Rows by owner -/

/-- The rows of the owners of whom `keep` says so. -/
def ofOwners (s : Store) (keep : UserId → Bool) : Store where
  projects := s.projects.filter fun p => keep p.owner
  objects := s.objects.filter fun o => keep o.owner
  attributes := s.attributes.filter fun a => keep a.owner
  actions := s.actions.filter fun a => keep a.owner

/-- The rows of a user. -/
def ownedBy (s : Store) (user : UserId) : Store := s.ofOwners (· == user)

/-- The rows of all others. -/
def ownedByOthers (s : Store) (user : UserId) : Store := s.ofOwners (· != user)

variable {s : Store} {user : UserId} {projectId : ProjectId} {objectId : ObjectId}

/-! ### What the consistency of rows says about owners -/

namespace Consistent

variable (h : s.Consistent)

include h

/-- The objects of a project of a user are objects of the user. -/
theorem object_owner {p : ProjectRow} (hp : s.project user projectId = .ok p) {o : Object}
    (ho : o ∈ s.objects.rows) (hid : o.projectId = projectId) : o.owner = user := by
  obtain ⟨hmem, hpid, howner⟩ := mem_of_project_eq_ok hp
  obtain ⟨q, hq, hown⟩ := h.object_housed o ho
  have hsame : q = p := Table.eq_of_number_eq hq hmem ((hown.1.trans hid).trans hpid.symm)
  rw [← hown.2, hsame, howner]

/-- What belongs to an object belongs to the owner of the object. -/
theorem attribute_owner {o : Object} (ho : o ∈ s.objects.rows) {a : AttributeRow}
    (ha : a ∈ s.attributes.rows) (hid : a.objectId = o.id) : a.owner = o.owner := by
  obtain ⟨q, hq, hown⟩ := h.attribute_housed a ha
  have hsame : q = o := Table.eq_of_number_eq hq ho (hown.1.trans hid)
  rw [← hown.2, hsame]

theorem action_owner {o : Object} (ho : o ∈ s.objects.rows) {a : ActionRow}
    (ha : a ∈ s.actions.rows) (hid : a.action.objectId = o.id) : a.owner = o.owner := by
  obtain ⟨q, hq, hown⟩ := h.action_housed a ha
  have hsame : q = o := Table.eq_of_number_eq hq ho (hown.1.trans hid)
  rw [← hown.2, hsame]

end Consistent

/-! ### What a user reads -/

/-- Among all rows and among those of the user, the user finds the same project. -/
theorem project_ownedBy : (s.ownedBy user).project user projectId = s.project user projectId := by
  unfold project
  rw [ownedBy, ofOwners, Table.find?_filter]
  rcases s.projects.find? projectId with _ | p
  · rfl
  · by_cases hp : p.owner = user
    · simp [Option.filter_some, hp]
    · simp [Option.filter_some, hp]

theorem object_ownedBy :
    (s.ownedBy user).object user projectId objectId = s.object user projectId objectId := by
  unfold object
  rw [project_ownedBy, ownedBy, ofOwners, Table.find?_filter]
  rcases s.objects.find? objectId with _ | o
  · rfl
  · by_cases ho : o.owner = user
    · simp [Option.filter_some, ho]
    · simp [Option.filter_some, ho]

theorem getProject_ownedBy :
    (s.ownedBy user).getProject user projectId = s.getProject user projectId := by
  rw [getProject, project_ownedBy, getProject]

theorem listProjects_ownedBy : (s.ownedBy user).listProjects user = s.listProjects user := by
  simp [listProjects, ownedBy, ofOwners]

theorem getObject_ownedBy :
    (s.ownedBy user).getObject user projectId objectId = s.getObject user projectId objectId :=
  object_ownedBy

theorem listObjects_ownedBy :
    (s.ownedBy user).listObjects user projectId = s.listObjects user projectId := by
  have hrows : ((s.ownedBy user).objects.rows.filter fun row =>
      row.owner == user && row.projectId == projectId) =
      s.objects.rows.filter fun row => row.owner == user && row.projectId == projectId := by
    apply Table.rows_filter_filter_of_imp
    intro o _ ho
    exact (Bool.and_eq_true_iff.mp ho).1
  rw [listObjects, project_ownedBy, hrows, listObjects]

namespace Consistent

variable (h : s.Consistent)

include h

/-- The attributes of an object of the user are the user's. -/
theorem attributes_ownedBy {o : Object} (ho : s.objects.find? objectId = some o)
    (howner : o.owner = user) :
    ((s.ownedBy user).attributes.rows.filter fun row => row.objectId == objectId) =
      s.attributes.rows.filter fun row => row.objectId == objectId := by
  obtain ⟨hmem, hid⟩ := Table.find?_eq_some_iff.mp ho
  apply Table.rows_filter_filter_of_imp
  intro a ha hobject
  rw [beq_iff_eq] at hobject ⊢
  rw [h.attribute_owner hmem ha (hobject.trans hid.symm), howner]

theorem listAttributes_ownedBy :
    (s.ownedBy user).listAttributes user objectId = s.listAttributes user objectId := by
  unfold listAttributes
  have hfind : (s.ownedBy user).objects.find? objectId =
      (s.objects.find? objectId).filter fun o => o.owner == user := Table.find?_filter ..
  rw [hfind]
  rcases ho : s.objects.find? objectId with _ | o
  · rfl
  by_cases howner : o.owner = user
  · simp [Option.filter_some, howner, h.attributes_ownedBy ho howner]
  · simp [Option.filter_some, howner]

/-- Whatever names an object of the user among the actions is the user's. -/
theorem action_ownedBy {o : Object} (ho : s.object user projectId objectId = .ok o)
    {a : ActionRow} (ha : a ∈ s.actions.rows) (hobject : a.action.objectId = objectId) :
    (a.owner == user) = true := by
  obtain ⟨hmem, hid, howner, -⟩ := mem_of_object_eq_ok ho
  rw [beq_iff_eq, h.action_owner hmem ha (hobject.trans hid.symm), howner]

theorem listActions_ownedBy :
    (s.ownedBy user).listActions user projectId objectId =
      s.listActions user projectId objectId := by
  unfold listActions
  rw [object_ownedBy]
  rcases ho : s.object user projectId objectId with e | o
  · rfl
  have hrows : ((s.ownedBy user).actions.rows.filter fun row => row.action.objectId == objectId) =
      s.actions.rows.filter fun row => row.action.objectId == objectId := by
    apply Table.rows_filter_filter_of_imp
    intro a ha hobject
    exact h.action_ownedBy ho ha (beq_iff_eq.mp hobject)
  rw [hrows]

/-! ### Models of a project -/

theorem modelsOf_ownedBy (objects : List Object) :
    (s.ownedBy user).modelsOf user objects = s.modelsOf user objects := by
  induction objects with
  | nil => rfl
  | cons object rest ih => rw [modelsOf, h.listAttributes_ownedBy, ih, modelsOf]

theorem generate_ownedBy : (s.ownedBy user).generate user projectId = s.generate user projectId := by
  simp only [generate, getProject_ownedBy, listObjects_ownedBy, h.modelsOf_ownedBy]

/-- A compile does not see rows of others. -/
theorem compileOn_ownedBy (config : CompilerConfig) (t : FileTree) :
    (s.ownedBy user).compileOn config user projectId t = s.compileOn config user projectId t := by
  simp only [compileOn, compileOnWith, compileWith, h.generate_ownedBy]

end Consistent

/-! ### What the user may write -/

theorem projectNameTaken_ownedBy {name : String} {except : Option ProjectId} :
    (s.ownedBy user).projectNameTaken user name except = s.projectNameTaken user name except := by
  apply Table.any_filter_of_imp
  intro p _ hp
  simp only [Bool.and_eq_true] at hp
  exact hp.1.1

theorem admitProject_ownedBy {p : NewProject} :
    (s.ownedBy user).admitProject user p = s.admitProject user p := by
  rw [admitProject, projectNameTaken_ownedBy, admitProject]

theorem admitRename_ownedBy {name : String} :
    (s.ownedBy user).admitRename user projectId name = s.admitRename user projectId name := by
  rw [admitRename, project_ownedBy, projectNameTaken_ownedBy, admitRename]

theorem renameProject_ownedBy {name : String} :
    ((s.ownedBy user).renameProject user projectId name).1 =
      (s.renameProject user projectId name).1 := by
  unfold renameProject
  rw [admitRename_ownedBy]
  rcases s.admitRename user projectId name with e | row
  · rfl
  · rfl

namespace Consistent

variable (h : s.Consistent)

include h

theorem admitObject_ownedBy {o : NewObject} :
    (s.ownedBy user).admitObject user projectId o = s.admitObject user projectId o := by
  unfold admitObject
  rw [project_ownedBy]
  rcases hp : s.project user projectId with e | p
  · rfl
  have htaken : (s.ownedBy user).objectNameTaken projectId o.name =
      s.objectNameTaken projectId o.name := by
    apply Table.any_filter_of_imp
    intro row hrow hclash
    rw [Bool.and_eq_true, beq_iff_eq] at hclash
    rw [beq_iff_eq, h.object_owner hp hrow hclash.1]
  rw [htaken]

theorem admitAction_ownedBy {a : NewAction} :
    (s.ownedBy user).admitAction user projectId objectId a =
      s.admitAction user projectId objectId a := by
  unfold admitAction
  rw [object_ownedBy]
  rcases ho : s.object user projectId objectId with e | o
  · rfl
  have htaken : (s.ownedBy user).actionTaken objectId a.resolvedIdentifier =
      s.actionTaken objectId a.resolvedIdentifier := by
    apply Table.any_filter_of_imp
    intro row hrow hclash
    rw [Bool.and_eq_true, beq_iff_eq] at hclash
    exact h.action_ownedBy ho hrow hclash.1
  rw [htaken]

end Consistent

namespace Consistent

variable (h : s.Consistent)

include h

/-- Whether a request is refused, and why, depends on the rows of its user alone. -/
theorem demands_ownedBy (w : Write) : w.demands (s.ownedBy w.user) = w.demands s := by
  cases w with
  | createProject now owner p => exact admitProject_ownedBy
  | renameProject owner id name => exact congrArg Write.unanswered admitRename_ownedBy
  | deleteProject owner id => exact congrArg Write.unanswered project_ownedBy
  | createObject now owner projectId o => exact h.admitObject_ownedBy
  | deleteObject owner projectId id => exact congrArg Write.unanswered object_ownedBy
  | createAction owner projectId objectId a => exact h.admitAction_ownedBy

/-- So does the outcome; a rename that is admitted is of the same row. -/
theorem run_ownedBy (w : Write) : (w.run (s.ownedBy w.user)).1 = (w.run s).1 := by
  have hsame := h.demands_ownedBy w
  cases hmet : w.demands s with
  | error e => rw [Write.run_of_refused hmet, Write.run_of_refused (hsame.trans hmet)]
  | ok u =>
    cases w with
    | renameProject owner id name =>
      simp only [Write.run, Prod.map_fst, Write.user, renameProject_ownedBy]
    | createProject | deleteProject | createObject | deleteObject | createAction =>
      rcases Write.run_of_admitted hmet with hok | ⟨_, _, _, _, heq, _⟩
      · rcases Write.run_of_admitted (hsame.trans hmet) with hok' | ⟨_, _, _, _, heq, _⟩
        · rw [hok, hok']
        · cases heq
      · cases heq

end Consistent

/-! ### Rows of others -/

/-- The rows of others do not change if only rows of the user come and go. -/
theorem ownedByOthers_eq {s' : Store}
    (hprojects : (s'.projects.filter fun p => p.owner != user) =
      s.projects.filter fun p => p.owner != user)
    (hobjects : (s'.objects.filter fun o => o.owner != user) =
      s.objects.filter fun o => o.owner != user)
    (hattributes : (s'.attributes.filter fun a => a.owner != user) =
      s.attributes.filter fun a => a.owner != user)
    (hactions : (s'.actions.filter fun a => a.owner != user) =
      s.actions.filter fun a => a.owner != user) :
    s'.ownedByOthers user = s.ownedByOthers user := by
  simp only [ownedByOthers, ofOwners, hprojects, hobjects, hattributes, hactions]

/-- The rows of a table that others own do not change if a row of the user is new. -/
theorem filter_insert_new [Numbered α] {t : Table α} (owner : α → UserId) {row : α}
    (hroom : t.HasRoom 1) (hnumber : number row = t.nextNumber) (howner : owner row = user) :
    ((t.insert row).filter fun r => owner r != user) = t.filter fun r => owner r != user := by
  apply Table.filter_insert
  · simp [howner]
  · intro r hr hsame
    exact absurd (hsame.trans hnumber) (Table.nextNumber_fresh hroom hr)

theorem filter_addAttributes {t : Table AttributeRow} {attributes : List NewAttribute}
    (hroom : t.HasRoom attributes.length) :
    ((addAttributes user objectId t attributes).filter fun a => a.owner != user) =
      t.filter fun a => a.owner != user := by
  induction attributes generalizing t with
  | nil => rfl
  | cons a rest ih =>
    let row : AttributeRow :=
      ⟨t.nextNumber, objectId, user, a.name, a.type.code, a.required, a.description⟩
    calc ((addAttributes user objectId (t.insert row) rest).filter fun a => a.owner != user)
        = (t.insert row).filter fun a => a.owner != user := ih (hroom.insert_new rfl)
      _ = t.filter fun a => a.owner != user := filter_insert_new AttributeRow.owner hroom.one rfl rfl

namespace Consistent

variable (h : s.Consistent)

include h

/-- With objects of the user only rows of the user are removed. -/
theorem withoutObjects_others {ids : List ObjectId}
    (howner : ∀ o ∈ s.objects.rows, o.id ∈ ids → o.owner = user) :
    (s.withoutObjects ids).ownedByOthers user = s.ownedByOthers user := by
  apply ownedByOthers_eq
  · rfl
  · apply Table.filter_filter_of_imp
    intro o ho hother
    rw [bne_iff_ne] at hother
    exact decide_eq_true fun hid => hother (howner o ho hid)
  · apply Table.filter_filter_of_imp
    intro a ha hother
    rw [bne_iff_ne] at hother
    obtain ⟨o, ho, hname, hown⟩ := h.attribute_housed a ha
    exact decide_eq_true fun hid => hother (hown.symm.trans (howner o ho (hname ▸ hid)))
  · apply Table.filter_filter_of_imp
    intro a ha hother
    rw [bne_iff_ne] at hother
    obtain ⟨o, ho, hname, hown⟩ := h.action_housed a ha
    exact decide_eq_true fun hid => hother (hown.symm.trans (howner o ho (hname ▸ hid)))

theorem deleteProject_others {p : ProjectRow} (hp : s.project user projectId = .ok p) :
    ({ s.withoutObjects
          ((s.objects.rows.filter fun o => o.projectId == projectId).map Object.id) with
        projects := s.projects.erase projectId } : Store).ownedByOthers user =
      s.ownedByOthers user := by
  have hobjects : (s.withoutObjects ((s.objects.rows.filter fun o =>
      o.projectId == projectId).map Object.id)).ownedByOthers user = s.ownedByOthers user := by
    apply h.withoutObjects_others
    intro o ho hid
    obtain ⟨o', ho', hsame⟩ := List.mem_map.mp hid
    obtain ⟨ho', hproject⟩ := List.mem_filter.mp ho'
    rw [← Table.eq_of_number_eq ho' ho hsame]
    exact h.object_owner hp ho' (beq_iff_eq.mp hproject)
  rw [← hobjects]
  refine ownedByOthers_eq ?_ rfl rfl rfl
  apply Table.filter_filter_of_imp
  intro q hq hother
  rw [bne_iff_ne] at hother ⊢
  intro hid
  obtain ⟨hmem, hpid, howner⟩ := mem_of_project_eq_ok hp
  have hsame : q = p := Table.eq_of_number_eq hq hmem (hid.trans hpid.symm)
  exact hother (hsame ▸ howner)

theorem deleteObject_others {o : Object} (ho : s.object user projectId objectId = .ok o) :
    (s.withoutObjects [objectId]).ownedByOthers user = s.ownedByOthers user := by
  obtain ⟨hmem, hid, howner, -⟩ := mem_of_object_eq_ok ho
  apply h.withoutObjects_others
  intro o' ho' hid'
  rw [Table.eq_of_number_eq ho' hmem ((List.mem_singleton.mp hid').trans hid.symm)]
  exact howner

end Consistent

/-- The row that is renamed takes its own place. -/
theorem renameProject_others {row : ProjectRow} {name : String}
    (admitted : s.admitRename user projectId name = .ok row) :
    ({ s with projects := s.projects.insert { row with name } } : Store).ownedByOthers user =
      s.ownedByOthers user := by
  obtain ⟨hmem, -, howner⟩ := mem_of_project_eq_ok (admitRename_eq_ok_iff.mp admitted).2.1
  refine ownedByOthers_eq (Table.filter_insert ?_ ?_) rfl rfl rfl
  · simp [howner]
  · intro r hr hsame
    rw [Table.eq_of_number_eq hr hmem hsame]
    simp [howner]

/-- A request changes no row of others. -/
theorem Consistent.run_others (h : s.Consistent) {w : Write} (hroom : w.HasRoom s) :
    (w.run s).2.ownedByOthers w.user = s.ownedByOthers w.user := by
  cases hmet : w.demands s with
  | error e => rw [Write.run_of_refused hmet]
  | ok u =>
    generalize hs : (w.run s).2 = s'
    cases Write.effect_of_run hs with
    | none => rfl
    | createProject admitted =>
      exact ownedByOthers_eq (filter_insert_new ProjectRow.owner (hroom admitted) rfl rfl) rfl rfl
        rfl
    | renameProject admitted => exact renameProject_others admitted
    | deleteProject =>
      obtain ⟨p, hp⟩ := Write.unanswered_eq_ok_iff.mp hmet
      exact h.deleteProject_others hp
    | createObject admitted =>
      obtain ⟨hobjects, hattributes⟩ := hroom admitted
      exact ownedByOthers_eq rfl (filter_insert_new Object.owner hobjects rfl rfl)
        (filter_addAttributes hattributes) rfl
    | deleteObject =>
      obtain ⟨o, ho⟩ := Write.unanswered_eq_ok_iff.mp hmet
      exact h.deleteObject_others ho
    | createAction admitted =>
      exact ownedByOthers_eq rfl rfl rfl
        (filter_insert_new ActionRow.owner (hroom admitted) rfl rfl)

end SchemaForge.Store
