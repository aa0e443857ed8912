import SchemaForge.Proofs.Compile.Generation
import SchemaForge.Proofs.Store.Effect

/-!
# Stores whose rows can be read

A row is corrupt if its number for a language or for a type stands for nothing. Requests write no
such row, so a store that starts out empty never has one. All that a store without corrupt rows
refuses are requests for what is missing, what is taken and what has no proper name.
-/

namespace SchemaForge

/-- Is a refusal for something about the request, and not for something about the store? -/
def StoreError.AboutRequest : StoreError → Prop
  | corrupt _ | backend _ => False
  | projectNotFound _ | objectNotFound _ | duplicate _ | naming _ => True

namespace Store

open StoreError (AboutRequest)

variable {s s' : Store} {owner : UserId} {projectId : ProjectId} {objectId : ObjectId}

/-- No row is corrupt. -/
structure Readable (s : Store) : Prop where
  language : ∀ row ∈ s.projects.rows, ∃ l, TargetLanguage.ofCode? row.languageCode = some l
  type : ∀ row ∈ s.attributes.rows, ∃ t, AttributeType.ofCode? row.typeCode = some t

/-! ### Demands -/

theorem project_eq_error {e : StoreError} (h : s.project owner projectId = .error e) :
    e = .projectNotFound projectId := by
  unfold project at h
  split at h
  · split at h
    · cases h
    · exact (Except.error.inj h).symm
  · exact (Except.error.inj h).symm

theorem refuses_project : Refuses AboutRequest (s.project owner projectId) := by
  intro e h
  rw [project_eq_error h]
  exact trivial

theorem refuses_object : Refuses AboutRequest (s.object owner projectId objectId) := by
  apply refuses_project.bind
  intro _ _
  split
  · split
    · exact .ok _
    · exact .error trivial
  · exact .error trivial

theorem refuses_demand (c : Checked) : Refuses AboutRequest (demand c) :=
  Refuses.mapError (P := fun _ => True) (fun _ _ => trivial) fun _ _ => trivial

theorem refuses_refuseTaken (entity : Entity) (taken : Bool) :
    Refuses AboutRequest (refuseTaken entity taken) := by
  unfold refuseTaken
  split
  · exact .error trivial
  · exact .ok ()

theorem refuses_demands (w : Write) : Refuses AboutRequest (w.demands s) := by
  cases w with
  | createProject now owner p => exact (refuses_demand _).bind fun _ _ => refuses_refuseTaken _ _
  | renameProject owner id name =>
    apply Refuses.map
    apply (refuses_demand _).bind
    intro _ _
    apply refuses_project.bind
    intro _ _
    exact (refuses_refuseTaken _ _).bind fun _ _ => .ok _
  | deleteProject owner id => exact refuses_project.map
  | createObject now owner projectId o =>
    apply (refuses_demand _).bind
    intro _ _
    apply refuses_project.bind
    intro _ _
    exact (refuses_refuseTaken _ _).bind fun _ _ => refuses_refuseTaken _ _
  | deleteObject owner projectId id => exact refuses_object.map
  | createAction owner projectId objectId a =>
    apply (refuses_demand _).bind
    intro _ _
    exact refuses_object.bind fun _ _ => refuses_refuseTaken _ _

/-! ### Attributes and models of objects -/

/-- Attributes are asked for by the number of their object and the owner, who is compared. -/
theorem listAttributes_of_mem {o : Object} (ho : o ∈ s.objects.rows) (howner : o.owner = owner) :
    s.listAttributes owner o.id = s.attributesOf o.id := by
  have hfind : s.objects.find? o.id = some o := Table.find?_number ho
  rw [listAttributes, hfind]
  exact if_pos howner

theorem exists_modelsOf {objects : List Object}
    (hobjects : ∀ o ∈ objects, o ∈ s.objects.rows ∧ o.owner = owner)
    (hreads : ∀ o ∈ objects, ∃ attributes, s.attributesOf o.id = .ok attributes) :
    ∃ models, s.modelsOf owner objects = .ok models := by
  induction objects with
  | nil => exact ⟨[], rfl⟩
  | cons o rest ih =>
    obtain ⟨ho, howner⟩ := hobjects o List.mem_cons_self
    obtain ⟨attributes, hattributes⟩ := hreads o List.mem_cons_self
    obtain ⟨models, hmodels⟩ := ih (fun o' ho' => hobjects o' (List.mem_cons_of_mem _ ho'))
      fun o' ho' => hreads o' (List.mem_cons_of_mem _ ho')
    refine ⟨⟨o, .ofObject o attributes⟩ :: models, ?_⟩
    rw [modelsOf, bind_eq_ok_iff]
    exact ⟨attributes, (listAttributes_of_mem ho howner).trans hattributes,
      bind_eq_ok_iff.mpr ⟨models, hmodels, rfl⟩⟩

/-! ### Writing -/

theorem readable_empty : empty.Readable :=
  ⟨fun _ h => absurd h List.not_mem_nil, fun _ h => absurd h List.not_mem_nil⟩

namespace Readable

theorem of_subset (h : s.Readable) (hprojects : ∀ row ∈ s'.projects.rows, row ∈ s.projects.rows)
    (hattributes : ∀ row ∈ s'.attributes.rows, row ∈ s.attributes.rows) : s'.Readable :=
  ⟨fun row hrow => h.language row (hprojects row hrow),
    fun row hrow => h.type row (hattributes row hrow)⟩

theorem insertProject (h : s.Readable) {row : ProjectRow}
    (hrow : ∃ l, TargetLanguage.ofCode? row.languageCode = some l) :
    ({ s with projects := s.projects.insert row } : Store).Readable := by
  refine ⟨fun p hp => ?_, h.type⟩
  rcases Table.mem_insert_iff.mp hp with rfl | ⟨hp, -⟩
  · exact hrow
  · exact h.language p hp

/-- What is read from before or made for a new attribute can be read. -/
theorem addAttributes (h : s.Readable) {attributes : List NewAttribute} {row : AttributeRow}
    (hrow : row ∈ (Store.addAttributes owner objectId s.attributes attributes).rows) :
    ∃ t, AttributeType.ofCode? row.typeCode = some t := by
  rcases mem_addAttributes hrow with hrow | ⟨a, -, hmade⟩
  · exact h.type row hrow
  · rw [hmade]
    exact ⟨a.type, AttributeType.ofCode?_code a.type⟩

theorem run (h : s.Readable) (w : Write) : (w.run s).2.Readable := by
  generalize hs : (w.run s).2 = s'
  -- the codes stand in projects and attributes alone: the other rows may come and go
  cases Write.effect_of_run hs with
  | none => exact h
  | @createProject _ _ p => exact h.insertProject ⟨p.language, TargetLanguage.ofCode?_code _⟩
  | @renameProject _ _ _ row admitted =>
    have hmem := (mem_of_project_eq_ok (admitRename_eq_ok_iff.mp admitted).2.1).1
    exact h.insertProject (h.language row hmem)
  | deleteProject =>
    exact h.of_subset (fun _ hrow => (Table.mem_erase_iff.mp hrow).1)
      fun _ hrow => (Table.mem_filter_iff.mp hrow).1
  | createObject => exact ⟨h.language, fun _ => h.addAttributes⟩
  | deleteObject =>
    exact h.of_subset (fun _ hrow => hrow) fun _ hrow => (Table.mem_filter_iff.mp hrow).1
  | createAction => exact ⟨h.language, h.type⟩

/-- A request that is admitted succeeds. -/
theorem refuses_run (h : s.Readable) (w : Write) : Refuses AboutRequest (w.run s).1 := by
  rcases hmet : w.demands s with e | ⟨⟩
  · rw [Write.run_of_refused hmet]
    exact .error (refuses_demands w e hmet)
  · rcases Write.run_of_admitted hmet with hok | ⟨owner, id, name, row, rfl, hrow, hunknown⟩
    · rw [hok]
      exact .ok ()
    · -- the rename of a project whose language is unknown, which no readable store has
      have hmem := (mem_of_project_eq_ok (admitRename_eq_ok_iff.mp hrow).2.1).1
      obtain ⟨l, hl⟩ := h.language row hmem
      rw [hl] at hunknown
      cases hunknown

/-! ### Reading -/

theorem exists_toProject (h : s.Readable) {row : ProjectRow} (hrow : row ∈ s.projects.rows) :
    ∃ p, row.toProject = .ok p := by
  obtain ⟨l, hl⟩ := h.language row hrow
  exact ⟨⟨row.id, row.name, row.owner, l, row.createdAt⟩, by rw [ProjectRow.toProject, hl]⟩

theorem exists_toAttribute (h : s.Readable) {row : AttributeRow}
    (hrow : row ∈ s.attributes.rows) : ∃ a, row.toAttribute = .ok a := by
  obtain ⟨t, ht⟩ := h.type row hrow
  exact ⟨⟨row.id, row.objectId, row.name, t, row.required, row.description⟩, by
    rw [AttributeRow.toAttribute, ht]⟩

theorem exists_decodedAll {ρ α : Type} {decode : ρ → Except CorruptRow α} {rows : List ρ}
    (h : ∀ row ∈ rows, ∃ a, decode row = .ok a) : ∃ as, decodedAll decode rows = .ok as := by
  induction rows with
  | nil => exact ⟨[], rfl⟩
  | cons row rest ih =>
    obtain ⟨a, ha⟩ := h row List.mem_cons_self
    obtain ⟨as, has⟩ := ih fun row' hrow' => h row' (List.mem_cons_of_mem _ hrow')
    exact ⟨a :: as, by rw [decodedAll, ha, has]; rfl⟩

theorem exists_listProjects (h : s.Readable) (owner : UserId) :
    ∃ ps, s.listProjects owner = .ok ps :=
  exists_decodedAll fun _ hrow => h.exists_toProject (List.mem_filter.mp hrow).1

theorem exists_getProject (h : s.Readable) {row : ProjectRow}
    (hrow : s.project owner projectId = .ok row) : ∃ p, s.getProject owner projectId = .ok p := by
  obtain ⟨p, hp⟩ := h.exists_toProject (mem_of_project_eq_ok hrow).1
  exact ⟨p, bind_eq_ok_iff.mpr ⟨row, hrow, mapError_eq_ok_iff.mpr hp⟩⟩

theorem refuses_getProject (h : s.Readable) :
    Refuses AboutRequest (s.getProject owner projectId) := by
  rcases hrow : s.project owner projectId with e | row
  · rw [getProject, hrow]
    exact .error (refuses_project e hrow)
  · obtain ⟨p, hp⟩ := h.exists_getProject hrow
    rw [hp]
    exact .ok p

theorem exists_attributesOf (h : s.Readable) (id : ObjectId) :
    ∃ attributes, s.attributesOf id = .ok attributes :=
  exists_decodedAll fun _ hrow => h.exists_toAttribute (List.mem_filter.mp hrow).1

theorem refuses_listAttributes (h : s.Readable) :
    Refuses AboutRequest (s.listAttributes owner objectId) := by
  rcases hfind : s.objects.find? objectId with _ | o
  · rw [listAttributes, hfind]
    exact .error trivial
  · -- attributes are asked for by the number of their object alone, so the owner is compared here
    by_cases howner : o.owner = owner
    · obtain ⟨ho, rfl⟩ := Table.find?_eq_some_iff.mp hfind
      obtain ⟨attributes, hattributes⟩ := h.exists_attributesOf o.id
      rw [show number o = o.id from rfl, listAttributes_of_mem ho howner, hattributes]
      exact .ok attributes
    · rw [listAttributes, hfind]
      dsimp only
      rw [if_neg howner]
      exact .error trivial

/-! ### Generating -/

/-- The models of every project of the user can be generated. -/
theorem exists_generate (h : s.Readable) {row : ProjectRow}
    (hrow : s.project owner projectId = .ok row) : ∃ g, s.generate owner projectId = .ok g := by
  obtain ⟨p, hp⟩ := h.exists_getProject hrow
  obtain ⟨objects, hlist, hobjects⟩ : ∃ objects, s.listObjects owner projectId = .ok objects ∧
      ∀ o ∈ objects, o ∈ s.objects.rows ∧ o.owner = owner := by
    refine ⟨_, bind_eq_ok_iff.mpr ⟨row, hrow, rfl⟩, fun o ho => ?_⟩
    obtain ⟨ho, hown⟩ := List.mem_filter.mp ho
    rw [Bool.and_eq_true, beq_iff_eq] at hown
    exact ⟨ho, hown.1⟩
  obtain ⟨models, hmodels⟩ := exists_modelsOf hobjects fun o _ => h.exists_attributesOf o.id
  refine ⟨⟨p, models⟩, mapError_eq_ok_iff.mpr ?_⟩
  refine bind_eq_ok_iff.mpr ⟨p, hp, bind_eq_ok_iff.mpr ⟨objects, hlist, ?_⟩⟩
  exact bind_eq_ok_iff.mpr ⟨models, hmodels, rfl⟩

end Readable

/-- Models are not generated for a project that the user does not have. -/
theorem generate_of_project_eq_error {e : StoreError}
    (h : s.project owner projectId = .error e) :
    s.generate owner projectId = .error (.projectNotFound projectId) := by
  obtain rfl := project_eq_error h
  rw [generate, getProject, h]
  rfl

/-! ### Listing -/

theorem refuses_listObjects : Refuses AboutRequest (s.listObjects owner projectId) :=
  refuses_project.bind fun _ _ => .ok _

theorem refuses_listActions : Refuses AboutRequest (s.listActions owner projectId objectId) :=
  refuses_object.bind fun _ _ => .ok _

end Store

end SchemaForge
