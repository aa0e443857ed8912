import SchemaForge.Compile.Generation
import SchemaForge.Proofs.Schema.Naming
import SchemaForge.Proofs.Staging.Layout
import SchemaForge.Proofs.Store.Consistency
import SchemaForge.Proofs.Store.Listing

/-!
# What is generated

The models of a project are those of all of its objects, in the order of their numbers, and each has
the attributes of its object, in the order of theirs. That the rows of a store are consistent gives
the models file names that are different names.
-/

namespace SchemaForge

namespace Store

variable {s : Store} {owner : UserId} {id : ProjectId}

/-! ### The models -/

/-- The model file of an object is made from its attributes. -/
def Models (s : Store) (m : GeneratedModel) : Prop :=
  ∃ attributes, s.attributesOf m.object.id = .ok attributes ∧
    m.file = .ofObject m.object attributes

/-- The text of the model file of an object, if its attributes can be read. -/
def sourceOf (s : Store) (o : Object) : String :=
  match s.attributesOf o.id with
  | .ok attributes => (ModelFile.ofObject o attributes).source
  | .error _ => ""

theorem Models.path_eq {m : GeneratedModel} (h : s.Models m) :
    m.file.path = ModelFile.pathOf m.object := by
  obtain ⟨attributes, -, hfile⟩ := h
  rw [hfile]
  rfl

theorem Models.source_eq {m : GeneratedModel} (h : s.Models m) :
    m.file.source = s.sourceOf m.object := by
  obtain ⟨attributes, hattributes, hfile⟩ := h
  rw [sourceOf, hattributes, hfile]

/-- There is one model for each object of a project, in the order of the objects. -/
structure Generates (s : Store) (id : ProjectId) (models : List GeneratedModel) : Prop where
  objects : models.map GeneratedModel.object = s.objectsOf id
  files : ∀ m ∈ models, s.Models m

theorem modelsOf_eq_ok {objects : List Object} {models : List GeneratedModel}
    (h : s.modelsOf owner objects = .ok models) :
    models.map GeneratedModel.object = objects ∧ ∀ m ∈ models, s.Models m := by
  induction objects generalizing models with
  | nil =>
    obtain rfl := Except.ok.inj h
    exact ⟨rfl, fun _ hm => absurd hm List.not_mem_nil⟩
  | cons object rest ih =>
    obtain ⟨attributes, hattributes, h⟩ := bind_eq_ok_iff.mp h
    obtain ⟨models', hmodels, h⟩ := bind_eq_ok_iff.mp h
    obtain ⟨hobjects, hfiles⟩ := ih hmodels
    obtain rfl := Except.ok.inj h
    refine ⟨by rw [List.map_cons, hobjects], fun m hm => ?_⟩
    rcases List.mem_cons.mp hm with rfl | hm
    · refine ⟨attributes, ?_, rfl⟩
      unfold listAttributes at hattributes
      split at hattributes
      · split at hattributes
        · exact hattributes
        · cases hattributes
      · cases hattributes
    · exact hfiles m hm

/-- The owner of a project owns all of its objects. -/
theorem Consistent.owner_eq (hs : s.Consistent) {row : ProjectRow} (hrow : row ∈ s.projects.rows)
    {o : Object} (ho : o ∈ s.objects.rows) (hid : o.projectId = row.id) : o.owner = row.owner := by
  obtain ⟨p, hp, hown⟩ := hs.object_housed o ho
  have heq : p = row := Table.eq_of_number_eq hp hrow (hown.1.trans hid)
  rw [← hown.2, heq]

/-- That the objects of a project belong to its owner as well is no further restriction. -/
theorem Consistent.listObjects_eq_ok (hs : s.Consistent) {row : ProjectRow}
    (hrow : s.project owner id = .ok row) : s.listObjects owner id = .ok (s.objectsOf id) := by
  obtain ⟨hmem, hid, howner⟩ := mem_of_project_eq_ok hrow
  refine bind_eq_ok_iff.mpr ⟨row, hrow, congrArg Except.ok (List.filter_congr fun o ho => ?_)⟩
  by_cases hproj : o.projectId = id
  · have howned := (hs.owner_eq hmem ho (hproj.trans hid.symm)).trans howner
    simp [hproj, howned]
  · simp [hproj]

theorem Consistent.generate_eq_ok (hs : s.Consistent) {g : Generation}
    (h : s.generate owner id = .ok g) :
    s.getProject owner id = .ok g.project ∧ s.Generates id g.models := by
  obtain ⟨project, hproject, h⟩ := bind_eq_ok_iff.mp (mapError_eq_ok_iff.mp h)
  obtain ⟨objects, hobjects, h⟩ := bind_eq_ok_iff.mp h
  obtain ⟨models, hmodels, h⟩ := bind_eq_ok_iff.mp h
  obtain rfl := Except.ok.inj h
  obtain ⟨row, hrow, -⟩ := bind_eq_ok_iff.mp hproject
  obtain rfl := Except.ok.inj ((hs.listObjects_eq_ok hrow).symm.trans hobjects)
  obtain ⟨hmap, hfiles⟩ := modelsOf_eq_ok hmodels
  exact ⟨hproject, hmap, hfiles⟩

/-- The name of a project that is answered has passed the rules. -/
theorem Consistent.checkProjectName_of_getProject (hs : s.Consistent) {p : Project}
    (h : s.getProject owner id = .ok p) : Naming.checkProjectName p.name = .ok () := by
  obtain ⟨row, hrow, hp⟩ := bind_eq_ok_iff.mp h
  rw [ProjectRow.name_of_toProject (mapError_eq_ok_iff.mp hp)]
  exact hs.project_named row (mem_of_project_eq_ok hrow).1

/-! ### File names -/

theorem Consistent.isName_nameOf (hs : s.Consistent) {o : Object} (ho : o ∈ s.objectsOf id) :
    IsName (ModelFile.nameOf o) := by
  apply isName_append _ (by simp) (by decide)
  rintro c hc rfl
  have hnamed := hs.object_named o (mem_objectsOf_iff.mp ho).1
  exact absurd (Naming.inIdentifier_of_checkIdentifier hnamed hc) (by decide)

theorem Consistent.nodup_nameOf (hs : s.Consistent) (id : ProjectId) :
    ((s.objectsOf id).map ModelFile.nameOf).Nodup := by
  have hdistinct : (s.objectsOf id).Nodup := by
    apply (s.ascending_objectsOf id).imp
    rintro a _ hlt rfl
    exact UInt64.lt_irrefl _ hlt
  apply hdistinct.map_on
  intro a ha b hb hab
  obtain ⟨ha, hida⟩ := mem_objectsOf_iff.mp ha
  obtain ⟨hb, hidb⟩ := mem_objectsOf_iff.mp hb
  have hname : a.name.toList = b.name.toList := by
    have hfile := String.toList_inj.mpr hab
    rw [ModelFile.nameOf, ModelFile.nameOf, String.toList_append, String.toList_append] at hfile
    exact List.append_cancel_right hfile
  -- names that are equal are equal but for case
  apply hs.object_unique a ha b hb
  refine ⟨hida.trans hidb.symm, ?_⟩
  rw [Text.sameIgnoringCase, hname]
  exact beq_self_eq_true _

namespace Generates

variable {models : List GeneratedModel} (h : s.Generates id models)

include h

theorem object_mem {m : GeneratedModel} (hm : m ∈ models) : m.object ∈ s.objectsOf id := by
  rw [← h.objects]
  exact List.mem_map_of_mem hm

theorem exists_model {o : Object} (ho : o ∈ s.objectsOf id) : ∃ m ∈ models, m.object = o :=
  List.mem_map.mp (h.objects ▸ ho)

theorem fileNames_eq :
    models.map GeneratedModel.fileName = (s.objectsOf id).map ModelFile.nameOf := by
  rw [← h.objects, List.map_map]
  rfl

theorem isName_fileName (hs : s.Consistent) : ∀ m ∈ models, IsName m.fileName := by
  intro m hm
  exact hs.isName_nameOf (h.object_mem hm)

theorem nodup_fileNames (hs : s.Consistent) : (models.map GeneratedModel.fileName).Nodup := by
  rw [h.fileNames_eq]
  exact hs.nodup_nameOf id

end Generates

end Store

end SchemaForge
