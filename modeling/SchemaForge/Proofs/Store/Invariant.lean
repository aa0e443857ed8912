import SchemaForge.Proofs.Schema.Repetition
import SchemaForge.Proofs.Store.Loading

/-!
# Consistency of all stores that can be reached

Every request keeps the rows consistent, and only consistent rows are loaded; hence the rows of every
store that a run leads to are consistent. New rows need numbers that no row has, which is where it
matters that the numbers have not run out.
-/

namespace SchemaForge

/-! ### Rules for payloads -/

theorem NewAttribute.checkAll_eq_ok_iff {attributes : List NewAttribute} :
    checkAll attributes = .ok () ↔ ∀ a ∈ attributes, a.check = .ok () := by
  induction attributes with
  | nil => simp [checkAll]
  | cons a rest ih => rw [checkAll, check_bind_eq_ok_iff, ih, List.forall_mem_cons]

theorem NewAttribute.named_of_check {a : NewAttribute} (h : a.check = .ok ()) :
    Naming.checkAttributeName a.name = .ok () :=
  (check_bind_eq_ok_iff.mp h).1

theorem NewObject.check_eq_ok_iff {o : NewObject} :
    o.check = .ok () ↔
      Naming.checkObjectName o.name = .ok () ∧ ∀ a ∈ o.attributes, a.check = .ok () := by
  rw [check, check_bind_eq_ok_iff, NewAttribute.checkAll_eq_ok_iff]

theorem NewAction.named_of_check {a : NewAction} {identifier : String}
    (h : a.check identifier = .ok ()) : Naming.checkActionIdentifier identifier = .ok () := by
  unfold check at h
  dsimp only at h
  split at h
  · cases h
  · exact (check_bind_eq_ok_iff.mp h).1

namespace Store

namespace Consistent

variable {s : Store}

/-! ### One request -/

/-- The attributes of a new object are put into the table one by one; those of the object that are
there already have other names. -/
theorem addAttributes {owner : UserId} {objectId : ObjectId} {attributes : List NewAttribute}
    (h : s.Consistent) (hobject : ∃ o ∈ s.objects.rows, o.id = objectId ∧ o.owner = owner)
    (hroom : s.attributes.HasRoom attributes.length)
    (hnamed : ∀ a ∈ attributes, Naming.checkAttributeName a.name = .ok ())
    (hnodup : (attributes.map NewAttribute.name).Nodup)
    (hfree : ∀ r ∈ s.attributes.rows, r.objectId = objectId →
      r.name ∉ attributes.map NewAttribute.name) :
    Store.Consistent
      { s with attributes := Store.addAttributes owner objectId s.attributes attributes } := by
  induction attributes generalizing s with
  | nil => exact h
  | cons a rest ih =>
    obtain ⟨hnot, hnodup⟩ := List.nodup_cons.mp hnodup
    let row : AttributeRow :=
      ⟨s.attributes.nextNumber, objectId, owner, a.name, a.type.code, a.required, a.description⟩
    have hstep : ({ s with attributes := s.attributes.insert row } : Store).Consistent := by
      have hparent : ∃ o ∈ s.objects.rows, o.OwnsAttribute row := hobject
      apply h.insertAttribute
      · exact hnamed a List.mem_cons_self
      · exact hparent
      · intro r hr hclash
        apply hfree r hr hclash.1
        rw [hclash.2]
        exact List.mem_cons_self
    apply ih (s := { s with attributes := s.attributes.insert row }) hstep hobject
    · exact hroom.insert_new rfl
    · intro b hb
      exact hnamed b (List.mem_cons_of_mem _ hb)
    · exact hnodup
    · -- names do not repeat, so the new row takes none of the names to come
      intro r hr hobj hmem
      rcases Table.mem_insert_iff.mp hr with rfl | ⟨hr, _⟩
      · exact hnot hmem
      · exact hfree r hr hobj (List.mem_cons_of_mem _ hmem)

theorem createProject (h : s.Consistent) {now : Instant} {owner : UserId} {p : NewProject}
    (hmet : s.admitProject owner p = .ok ()) (hroom : s.projects.HasRoom 1) :
    Store.Consistent
      { s with
        projects := s.projects.insert ⟨s.projects.nextNumber, p.name, owner, p.language.code, now⟩ } := by
  obtain ⟨hnamed, hfree⟩ := admitProject_eq_ok_iff.mp hmet
  rw [projectNameTaken_eq_false_iff] at hfree
  apply h.insertProject
  · exact hnamed
  · intro q hq _ hclash
    exact hfree q hq (by simp) hclash
  · intro q hq hid
    exact absurd hid (Table.nextNumber_fresh hroom hq)

theorem renameProject (h : s.Consistent) {owner : UserId} {id : ProjectId} {name : String}
    {row : ProjectRow} (hmet : s.admitRename owner id name = .ok row) :
    Store.Consistent { s with projects := s.projects.insert { row with name } } := by
  obtain ⟨hnamed, hrow, hfree⟩ := admitRename_eq_ok_iff.mp hmet
  rw [projectNameTaken_eq_false_iff] at hfree
  obtain ⟨hmem, hid, howner⟩ := mem_of_project_eq_ok hrow
  apply h.insertProject
  · exact hnamed
  · intro q hq hne hclash
    have hother : some q.id ≠ some id := by
      intro heq
      apply hne
      rw [Option.some.inj heq]
      exact hid.symm
    exact hfree q hq hother ⟨hclash.1.trans howner, hclash.2⟩
  · -- the row whose place is taken is the one that is renamed
    intro q hq heq
    rw [Table.eq_of_number_eq hq hmem heq]

theorem deleteProject (h : s.Consistent) (id : ProjectId) :
    Store.Consistent
      { s.withoutObjects ((s.objects.rows.filter fun o => o.projectId == id).map Object.id) with
        projects := s.projects.erase id } := by
  -- all objects of the project have been removed
  apply eraseProject (h.withoutObjects _)
  intro o ho hproject
  obtain ⟨ho, hstays⟩ := Table.mem_filter_iff.mp ho
  apply of_decide_eq_true hstays
  exact List.mem_map_of_mem (List.mem_filter.mpr ⟨ho, beq_iff_eq.mpr hproject⟩)

theorem createObject (h : s.Consistent) {now : Instant} {owner : UserId} {projectId : ProjectId}
    {o : NewObject} (hmet : s.admitObject owner projectId o = .ok ())
    (hroom : s.objects.HasRoom 1 ∧ s.attributes.HasRoom o.attributes.length) :
    Store.Consistent
      { s with
        objects := s.objects.insert ⟨s.objects.nextNumber, o.name, projectId, owner, now⟩
        attributes :=
          Store.addAttributes owner s.objects.nextNumber s.attributes o.attributes } := by
  obtain ⟨hcheck, ⟨p, hp⟩, hfree, hnodup⟩ := admitObject_eq_ok_iff.mp hmet
  obtain ⟨hnamed, hattributes⟩ := NewObject.check_eq_ok_iff.mp hcheck
  rw [objectNameTaken_eq_false_iff] at hfree
  obtain ⟨hmem, hid, howner⟩ := mem_of_project_eq_ok hp
  let row : Object := ⟨s.objects.nextNumber, o.name, projectId, owner, now⟩
  have hobject : ({ s with objects := s.objects.insert row } : Store).Consistent :=
    h.insertObject hnamed ⟨p, hmem, hid, howner⟩ hfree fun _ => Table.nextNumber_fresh hroom.1
  apply addAttributes hobject ⟨row, Table.mem_insert_iff.mpr (.inl rfl), rfl, rfl⟩ hroom.2
  · intro a ha
    exact NewAttribute.named_of_check (hattributes a ha)
  · exact repeatedNames_eq_nil_iff.mp hnodup
  · -- no attribute names an object that is not there yet
    intro r hr hobj
    obtain ⟨parent, hparent, hown⟩ := h.attribute_housed r hr
    exact absurd (hown.1.trans hobj) (Table.nextNumber_fresh hroom.1 hparent)

theorem createAction (h : s.Consistent) {owner : UserId} {projectId : ProjectId}
    {objectId : ObjectId} {a : NewAction}
    (hmet : s.admitAction owner projectId objectId a = .ok ()) :
    Store.Consistent
      { s with
        actions :=
          s.actions.insert
            ⟨owner, s.actions.nextNumber, objectId, a.friendlyName, a.resolvedIdentifier, a.method,
              a.route, a.description, a.returnValues⟩ } := by
  obtain ⟨hcheck, ⟨o, ho⟩, hfree⟩ := admitAction_eq_ok_iff.mp hmet
  rw [actionTaken_eq_false_iff] at hfree
  obtain ⟨hmem, hid, howner, -⟩ := mem_of_object_eq_ok ho
  apply h.insertAction
  · exact NewAction.named_of_check hcheck
  · exact ⟨o, hmem, hid, howner⟩
  · intro r hr hclash
    exact hfree r hr hclash

/-- A request keeps the rows consistent. -/
theorem run (h : s.Consistent) {w : Write} (hroom : w.HasRoom s) : (w.run s).2.Consistent := by
  generalize hs : (w.run s).2 = s'
  cases Write.effect_of_run hs with
  | none => exact h
  | createProject admitted => exact h.createProject admitted (hroom admitted)
  | renameProject admitted => exact h.renameProject admitted
  | deleteProject => exact h.deleteProject _
  | createObject admitted => exact h.createObject admitted (hroom admitted)
  | deleteObject => exact h.withoutObjects _
  | createAction admitted => exact h.createAction admitted

end Consistent

/-! ### Runs -/

/-- The rows of every store that a run leads to are consistent. -/
theorem Reachable.consistent {s : Store} (h : s.Reachable) : s.Consistent := by
  induction h with
  | empty => exact consistent_empty
  | loaded hload => exact consistent_ofSnapshot hload
  | written w _ hroom ih => exact ih.run hroom

/-- A store is one of these if its rows can be loaded. -/
theorem reachable_of_isOk {s : Store} (h : (ofSnapshot s.snapshot).isOk = true) : s.Reachable := by
  rcases hload : ofSnapshot s.snapshot with e | s'
  · rw [hload] at h
    cases h
  · rw [(ofSnapshot_eq_ok_iff.mp hload).2, ofRows_snapshot] at hload
    exact .loaded hload

/-! ### The schema of a store -/

/-- In every store that a run leads to, each row is stored under its number and the rows together
are consistent. -/
theorem reachable_rows_form_schema {s : Store} (h : s.Reachable) :
    (∀ p ∈ s.projects.rows, s.projects.find? p.id = some p) ∧
      (∀ o ∈ s.objects.rows, s.objects.find? o.id = some o) ∧
      (∀ a ∈ s.attributes.rows, s.attributes.find? a.id = some a) ∧
      (∀ a ∈ s.actions.rows, s.actions.find? a.action.id = some a) ∧
      s.snapshot.Consistent := by
  refine ⟨?_, ?_, ?_, ?_, h.consistent⟩
  · exact fun _ => Table.find?_number
  · exact fun _ => Table.find?_number
  · exact fun _ => Table.find?_number
  · exact fun _ => Table.find?_number

/-- A store with a project in an unknown language, to which an object with two attributes is
added. -/
theorem loaded_store_with_new_object_forms_schema :
    ∃ (rows : Snapshot) (s : Store) (w : Write), ofSnapshot rows = .ok s ∧
      w = .createObject .epoch 7 3
        ⟨"Item", [⟨"price", .decimal, true, none⟩, ⟨"tag", .text, false, none⟩]⟩ ∧
      (w.run s).2.attributes.rows.length = 2 ∧ (w.run s).2.Reachable ∧
      (w.run s).2.snapshot.Consistent := by
  let rows : Snapshot := ⟨[⟨3, "Shop", 7, 2, .epoch⟩], [], [], []⟩
  let s : Store :=
    ⟨⟨[⟨3, "Shop", 7, 2, .epoch⟩], List.pairwise_singleton ..⟩, .empty, .empty, .empty⟩
  let w : Write := .createObject .epoch 7 3
    ⟨"Item", [⟨"price", .decimal, true, none⟩, ⟨"tag", .text, false, none⟩]⟩
  have hload : ofSnapshot rows = .ok s := rfl
  have hroom : w.HasRoom s := fun _ => by
    constructor
    · show 0 + 1 < 2 ^ 64
      decide
    · show 0 + 2 < 2 ^ 64
      decide
  have hreach : (w.run s).2.Reachable := (Reachable.loaded hload).written w hroom
  obtain ⟨_, _, _, _, hconsistent⟩ := reachable_rows_form_schema hreach
  exact ⟨rows, s, w, hload, rfl, rfl, hreach, hconsistent⟩

end Store

end SchemaForge
