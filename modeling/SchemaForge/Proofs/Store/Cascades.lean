import SchemaForge.Proofs.Store.Isolation
import SchemaForge.Proofs.Store.Readable

/-!
# What a delete takes along

With a project go its objects, and with an object go its attributes and actions. Rows are removed by
the number of what they belong to, whoever owns them, and the objects of a project one after the
other; that the rows are consistent makes this remove exactly what belongs to the project, all of it
rows of the user who asks for it.
-/

namespace SchemaForge

/-- Are the rows picked out removed and no others, and were all of them rows of the user? -/
structure Table.Removes [Numbered α] (owner : α → UserId) (user : UserId) (gone : α → Prop)
    (t t' : Table α) : Prop where
  rows : ∀ row, row ∈ t'.rows ↔ row ∈ t.rows ∧ ¬gone row
  owned : ∀ row ∈ t.rows, gone row → owner row = user

namespace Store

variable {s : Store} {user : UserId} {projectId : ProjectId} {id : ObjectId}

/-! ### Objects that are gone -/

/-- Is a request refused because the project is missing, or else the object? -/
def Missed (projectId : ProjectId) (id : ObjectId) (r : Except StoreError α) : Prop :=
  r = .error (.projectNotFound projectId) ∨ r = .error (.objectNotFound id)

theorem Missed.bind {r : Except StoreError α} (h : Missed projectId id r)
    (f : α → Except StoreError β) : Missed projectId id (r >>= f) := by
  rcases h with rfl | rfl
  · exact .inl rfl
  · exact .inr rfl

/-- Whoever asks for an object, or for what belongs to it, and in whatever project: Is it missed? -/
structure Misses (s : Store) (id : ObjectId) : Prop where
  object : ∀ user projectId, Missed projectId id (s.getObject user projectId id)
  attributes : ∀ user, s.listAttributes user id = .error (.objectNotFound id)
  actions : ∀ user projectId, Missed projectId id (s.listActions user projectId id)

theorem missed_object (h : s.objects.find? id = none) (user : UserId) (projectId : ProjectId) :
    Missed projectId id (s.object user projectId id) := by
  unfold object
  rcases hp : s.project user projectId with e | p
  · rw [project_eq_error hp]
    exact .inl rfl
  · rw [h]
    exact .inr rfl

theorem misses_of_find?_eq_none (h : s.objects.find? id = none) : s.Misses id where
  object := missed_object h
  attributes user := by rw [listAttributes, h]
  actions user projectId := (missed_object h user projectId).bind _

/-! ### Cascades -/

/-- Are the projects and objects picked out removed with all that belongs to these objects, and is
everything else as it was? -/
structure Cascade (user : UserId) (goneProject : ProjectRow → Prop) (goneObject : Object → Prop)
    (s s' : Store) : Prop where
  projects : s.projects.Removes ProjectRow.owner user goneProject s'.projects
  objects : s.objects.Removes Object.owner user goneObject s'.objects
  attributes : s.attributes.Removes AttributeRow.owner user
    (fun a => ∃ o ∈ s.objects.rows, goneObject o ∧ o.id = a.objectId) s'.attributes
  actions : s.actions.Removes ActionRow.owner user
    (fun a => ∃ o ∈ s.objects.rows, goneObject o ∧ o.id = a.action.objectId) s'.actions
  missed : ∀ o ∈ s.objects.rows, goneObject o → s'.Misses o.id

section Removed

variable {goneObject : Object → Prop} {ids : List ObjectId}

/-- What is removed by the number of its object belongs to an object that is removed. -/
theorem removes_children [Numbered α] {t : Table α} {owner : α → UserId} {parent : α → ObjectId}
    (hhoused : ∀ c ∈ t.rows, ∃ o ∈ s.objects.rows, o.id = parent c ∧ o.owner = owner c)
    (hids : ∀ o ∈ s.objects.rows, o.id ∈ ids ↔ goneObject o)
    (howner : ∀ o ∈ s.objects.rows, goneObject o → o.owner = user) :
    t.Removes owner user (fun c => ∃ o ∈ s.objects.rows, goneObject o ∧ o.id = parent c)
      (t.filter fun c => decide (parent c ∉ ids)) := by
  refine ⟨fun c => ?_, ?_⟩
  · rw [Table.mem_filter_iff, decide_eq_true_iff]
    refine and_congr_right fun hc => not_congr ⟨fun hid => ?_, ?_⟩
    · obtain ⟨o, ho, hname, -⟩ := hhoused c hc
      exact ⟨o, ho, (hids o ho).mp (hname ▸ hid), hname⟩
    · rintro ⟨o, ho, hgone, hname⟩
      exact hname ▸ (hids o ho).mpr hgone
  · -- a row has the owner of its object, and no other object has the same number
    rintro c hc ⟨o, ho, hgone, hname⟩
    obtain ⟨o', ho', hname', hown⟩ := hhoused c hc
    rw [← hown, Table.eq_of_number_eq ho' ho (hname'.trans hname.symm)]
    exact howner o ho hgone

theorem Consistent.cascade (h : s.Consistent) {projects : Table ProjectRow}
    {goneProject : ProjectRow → Prop}
    (hprojects : s.projects.Removes ProjectRow.owner user goneProject projects)
    (hids : ∀ o ∈ s.objects.rows, o.id ∈ ids ↔ goneObject o)
    (howner : ∀ o ∈ s.objects.rows, goneObject o → o.owner = user) :
    Cascade user goneProject goneObject s { s.withoutObjects ids with projects } where
  projects := hprojects
  objects := by
    refine ⟨fun o => ?_, howner⟩
    rw [Store.withoutObjects, Table.mem_filter_iff, decide_eq_true_iff]
    exact and_congr_right fun ho => not_congr (hids o ho)
  attributes := removes_children h.attribute_housed hids howner
  actions := removes_children h.action_housed hids howner
  missed o ho hgone := by
    apply misses_of_find?_eq_none
    rw [Table.find?_eq_none_iff]
    intro o' ho' heq
    obtain ⟨-, hstays⟩ := Table.mem_filter_iff.mp ho'
    have hid : o'.id = o.id := heq
    rw [hid, decide_eq_true_iff] at hstays
    exact hstays ((hids o ho).mpr hgone)

end Removed

namespace Consistent

variable (h : s.Consistent)

include h

/-- An object goes with what belongs to it. -/
theorem cascade_deleteObject (hok : (s.deleteObject user projectId id).1 = .ok ()) :
    (∃ o ∈ s.objects.rows, o.id = id ∧ o.projectId = projectId) ∧
      Cascade user (fun _ => False) (fun o => o.id = id) s (s.deleteObject user projectId id).2 := by
  unfold Store.deleteObject at hok ⊢
  rcases ho : s.object user projectId id with e | o
  · rw [ho] at hok
    cases hok
  obtain ⟨hmem, hid, howner, hproject⟩ := mem_of_object_eq_ok ho
  refine ⟨⟨o, hmem, hid, hproject⟩, ?_⟩
  dsimp only
  rw [removeObject_eq]
  apply h.cascade
  · exact ⟨fun _ => (and_iff_left not_false).symm, fun _ _ hgone => hgone.elim⟩
  · exact fun _ _ => List.mem_singleton
  · intro o' ho' hid'
    rw [Table.eq_of_number_eq ho' hmem (hid'.trans hid.symm)]
    exact howner

/-- A project goes with its objects and what belongs to them. -/
theorem cascade_deleteProject (hok : (s.deleteProject user projectId).1 = .ok ()) :
    (∃ p ∈ s.projects.rows, p.id = projectId) ∧
      Cascade user (fun p => p.id = projectId) (fun o => o.projectId = projectId) s
        (s.deleteProject user projectId).2 := by
  unfold Store.deleteProject at hok ⊢
  rcases hp : s.project user projectId with e | p
  · rw [hp] at hok
    cases hok
  obtain ⟨hmem, hid, howner⟩ := mem_of_project_eq_ok hp
  refine ⟨⟨p, hmem, hid⟩, ?_⟩
  dsimp only
  rw [foldl_removeObject_eq]
  apply h.cascade
  · refine ⟨fun q => Table.mem_erase_iff, fun q hq hid' => ?_⟩
    rw [Table.eq_of_number_eq hq hmem (hid'.trans hid.symm)]
    exact howner
  · -- the numbers that are collected first are those of the objects of the project
    intro o ho
    constructor
    · intro hnumber
      obtain ⟨o', ho', hsame⟩ := List.mem_map.mp hnumber
      obtain ⟨ho', hproject⟩ := List.mem_filter.mp ho'
      rw [← Table.eq_of_number_eq ho' ho hsame]
      exact beq_iff_eq.mp hproject
    · intro hproject
      exact List.mem_map_of_mem (List.mem_filter.mpr ⟨ho, beq_iff_eq.mpr hproject⟩)
  · exact fun o ho hproject => h.object_owner hp ho hproject

end Consistent

/-- A project that is deleted goes with its objects, an object that is deleted goes with its
attributes and actions, and nothing else goes with them. All that goes was the user's, and whoever asks
for an object that is gone is told that it is missing, or else its project. -/
theorem deletes_take_exactly_what_belongs (h : s.Reachable) (user : UserId)
    (projectId : ProjectId) (id : ObjectId) :
    ((s.deleteProject user projectId).1 = .ok () →
      (∃ p ∈ s.projects.rows, p.id = projectId) ∧
        Cascade user (fun p => p.id = projectId) (fun o => o.projectId = projectId) s
          (s.deleteProject user projectId).2) ∧
    ((s.deleteObject user projectId id).1 = .ok () →
      (∃ o ∈ s.objects.rows, o.id = id ∧ o.projectId = projectId) ∧
        Cascade user (fun _ => False) (fun o => o.id = id) s
          (s.deleteObject user projectId id).2) :=
  ⟨h.consistent.cascade_deleteProject, h.consistent.cascade_deleteObject⟩

/-- Two users have a project of the same name, with an object of the same name. The one that is
deleted takes along its own attribute and action and leaves those of the other. -/
theorem namesake_of_deleted_project_stays :
    ∃ (s : Store) (price price' : AttributeRow) (buy buy' : ActionRow), s.Reachable ∧
      s.attributes.rows = [price, price'] ∧ s.actions.rows = [buy, buy'] ∧
      (s.deleteProject 7 3).1 = .ok () ∧ (s.deleteObject 7 3 1).1 = .ok () ∧
      price ∉ (s.deleteProject 7 3).2.attributes.rows ∧
      price' ∈ (s.deleteProject 7 3).2.attributes.rows ∧
      buy ∉ (s.deleteObject 7 3 1).2.actions.rows ∧ buy' ∈ (s.deleteObject 7 3 1).2.actions.rows ∧
      (s.deleteProject 7 3).2.Misses 1 ∧ (s.deleteObject 7 3 1).2.Misses 1 := by
  let item : Object := ⟨1, "Item", 3, 7, .epoch⟩
  let item' : Object := ⟨2, "Item", 4, 8, .epoch⟩
  let price : AttributeRow := ⟨1, 1, 7, "price", 3, true, none⟩
  let price' : AttributeRow := ⟨2, 2, 8, "price", 3, true, none⟩
  let buy : ActionRow := ⟨7, ⟨1, 1, "Buy", "buy", .post, "/buy", none, []⟩⟩
  let buy' : ActionRow := ⟨8, ⟨2, 2, "Buy", "buy", .post, "/buy", none, []⟩⟩
  let s : Store :=
    ⟨⟨[⟨3, "Shop", 7, 1, .epoch⟩, ⟨4, "Shop", 8, 1, .epoch⟩], by decide⟩, ⟨[item, item'], by decide⟩,
      ⟨[price, price'], by decide⟩, ⟨[buy, buy'], by decide⟩⟩
  have hs : s.Reachable := reachable_of_isOk (by decide +kernel)
  have hproject : (s.deleteProject 7 3).1 = .ok () := by with_unfolding_all rfl
  have hobject : (s.deleteObject 7 3 1).1 = .ok () := by with_unfolding_all rfl
  have hitem : item ∈ s.objects.rows := List.mem_cons_self
  -- the only other object belongs to the other project and has another number
  have hkept : ∀ o ∈ s.objects.rows, o.projectId = 3 ∨ o.id = 1 → o.id ≠ 2 := by
    decide +kernel
  obtain ⟨hprojects, hobjects⟩ := deletes_take_exactly_what_belongs hs 7 3 1
  obtain ⟨-, cascade⟩ := hprojects hproject
  obtain ⟨-, cascade'⟩ := hobjects hobject
  refine ⟨s, price, price', buy, buy', hs, rfl, rfl, hproject, hobject, ?_, ?_, ?_, ?_,
    cascade.missed item hitem rfl, cascade'.missed item hitem rfl⟩
  · intro hmem
    exact ((cascade.attributes.rows price).mp hmem).2 ⟨item, hitem, rfl, rfl⟩
  · refine (cascade.attributes.rows price').mpr ⟨List.mem_cons_of_mem _ List.mem_cons_self, ?_⟩
    rintro ⟨o, ho, hgone, hname⟩
    exact hkept o ho (.inl hgone) hname
  · intro hmem
    exact ((cascade'.actions.rows buy).mp hmem).2 ⟨item, hitem, rfl, rfl⟩
  · refine (cascade'.actions.rows buy').mpr ⟨List.mem_cons_of_mem _ List.mem_cons_self, ?_⟩
    rintro ⟨o, ho, hgone, hname⟩
    exact hkept o ho (.inr hgone) hname

end Store

end SchemaForge
