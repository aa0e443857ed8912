import SchemaForge.Proofs.Schema.Naming
import SchemaForge.Proofs.Staging.Layout
import SchemaForge.Proofs.Staging.Site

/-!
# Projects are staged apart

The directories of two projects are not in each other, and the files of a project are in its own
directory, name by name. Where there are no links below an area, all of these paths may be asked for.
-/

namespace SchemaForge

/-- Numbers that are written alike are equal. -/
theorem toString_inj {m n : UInt64} : toString m = toString n ↔ m = n := by
  refine ⟨fun h => UInt64.toNat_inj.mp ?_, congrArg toString⟩
  have hdigits : Nat.toDigits 10 m.toNat = Nat.toDigits 10 n.toNat := by
    rw [← Nat.toList_repr, ← Nat.toList_repr]
    exact congrArg String.toList h
  rw [← Nat.ofDigitChars_ten_toDigits (n := m.toNat), hdigits, Nat.ofDigitChars_ten_toDigits]

namespace Layout

/-- Is a path that of a directory, or of something in it, segment by segment? -/
def Within (directory path : String) : Prop := Text.segments directory <+: Text.segments path

/-- Is it the path of something in the directory? -/
def StrictlyWithin (directory path : String) : Prop :=
  Within directory path ∧ Text.segments directory ≠ Text.segments path

variable {owner owner' : UserId} {project project' : ProjectId} {name : String}

/-! ### Segments of the layout -/

theorem segments_projectDirectory :
    Text.segments (projectDirectory owner project) = projectNames owner project := by
  rw [projectDirectory_eq]
  exact StagingArea.segments_intercalate fun _ => isName_of_mem_projectNames

theorem segments_objectsDirectory :
    Text.segments (objectsDirectory owner project) = objectsNames owner project := by
  rw [objectsDirectory_eq]
  exact StagingArea.segments_intercalate fun _ => isName_of_mem_objectsNames

theorem isName_of_mem_objectFile (h : IsName name) :
    ∀ n ∈ objectsNames owner project ++ [name], IsName n :=
  List.forall_mem_append.mpr
    ⟨fun _ => isName_of_mem_objectsNames, List.forall_mem_singleton.mpr h⟩

theorem segments_objectFile (h : IsName name) :
    Text.segments (objectFile owner project name) = objectsNames owner project ++ [name] := by
  rw [objectFile_eq h]
  exact StagingArea.segments_intercalate (isName_of_mem_objectFile h)

theorem isName_of_mem_archiveFile :
    ∀ n ∈ projectNames owner project ++ [Naming.fileName name ++ ".zip"], IsName n :=
  List.forall_mem_append.mpr
    ⟨fun _ => isName_of_mem_projectNames, List.forall_mem_singleton.mpr (isName_archive name)⟩

theorem segments_archiveFile :
    Text.segments (archiveFile owner project name) =
      projectNames owner project ++ [Naming.fileName name ++ ".zip"] := by
  rw [archiveFile_eq]
  exact StagingArea.segments_intercalate isName_of_mem_archiveFile

/-- A model file is named by an object, and so its name is one. -/
theorem isName_of_checkObjectName (h : Naming.checkObjectName name = .ok ()) :
    IsName (name ++ ".js") := by
  apply isName_append _ (by simp) (by decide)
  rintro c hc rfl
  exact absurd (Naming.inIdentifier_of_checkIdentifier h hc) (by decide)

/-- The file of an object has a short name. -/
theorem layoutName_of_checkObjectName {object : String}
    (h : Naming.checkObjectName object = .ok ()) : LayoutName (object ++ ".js") := by
  apply layoutName_append (isName_of_checkObjectName h) _ (by decide)
    (Naming.length_le_of_checkIdentifier h) (by decide)
  exact fun hnul => absurd (Naming.inIdentifier_of_checkIdentifier h hnul) (by decide)

/-! ### Directories of different projects -/

/-- The numbers can be read off the path. -/
theorem numbers_eq_of_prefix_names {rest : List String}
    (h : projectNames owner project <+: projectNames owner' project' ++ rest) :
    (owner, project) = (owner', project') := by
  have heq : projectNames owner project = projectNames owner' project' :=
    (List.prefix_of_prefix_length_le h (List.prefix_append _ _) (Nat.le_refl 3)).eq_of_length rfl
  obtain ⟨howner, -, hproject⟩ :
      toString owner = toString owner' ∧ "projects" = "projects" ∧
        toString project = toString project' := by
    simpa [projectNames] using heq
  rw [toString_inj.mp howner, toString_inj.mp hproject]

theorem not_within_projectDirectory (h : (owner, project) ≠ (owner', project')) :
    ¬Within (projectDirectory owner project) (projectDirectory owner' project') := by
  intro hwithin
  rw [Within, segments_projectDirectory, segments_projectDirectory,
    ← List.append_nil (projectNames owner' project')] at hwithin
  exact h (numbers_eq_of_prefix_names hwithin)

/-! ### Files of a project -/

theorem strictlyWithin_of_segments_eq {directory path : String} {rest : List String}
    (h : Text.segments path = Text.segments directory ++ rest) (hrest : rest ≠ []) :
    StrictlyWithin directory path := by
  refine ⟨⟨rest, h.symm⟩, fun heq => hrest ?_⟩
  rw [heq] at h
  exact List.self_eq_append_right.mp h

theorem strictlyWithin_objectFile (h : IsName name) :
    StrictlyWithin (projectDirectory owner project) (objectFile owner project name) := by
  apply strictlyWithin_of_segments_eq _ (List.cons_ne_nil "objects" [name])
  rw [segments_objectFile h, segments_projectDirectory, objectsNames, List.append_assoc]
  rfl

theorem strictlyWithin_archiveFile :
    StrictlyWithin (projectDirectory owner project) (archiveFile owner project name) := by
  apply strictlyWithin_of_segments_eq _ (List.cons_ne_nil (Naming.fileName name ++ ".zip") [])
  rw [segments_archiveFile, segments_projectDirectory]

/-- An archive has another name than a directory of model files. -/
theorem not_within_archiveFile :
    ¬Within (objectsDirectory owner' project') (archiveFile owner project name) := by
  intro hwithin
  rw [Within, segments_objectsDirectory, segments_archiveFile] at hwithin
  have heq := List.append_inj' (hwithin.eq_of_length rfl) rfl
  have hname := congrArg String.toList (List.singleton_inj.mp heq.2)
  have hlast : "objects".toList.getLast? = (Naming.fileName name ++ ".zip").toList.getLast? :=
    congrArg List.getLast? hname
  simp at hlast

/-- Every path of the layout consists of names. -/
theorem exists_names {object project path : String} {id : ProjectId} (hobject : IsName object)
    (hpath : path ∈ [projectDirectory owner id, objectsDirectory owner id,
      objectFile owner id object, archiveFile owner id project]) :
    ∃ names : List String, (∀ n ∈ names, IsName n) ∧ 2 ≤ names.length ∧
      path = "/".intercalate names := by
  simp only [List.mem_cons, List.not_mem_nil, or_false] at hpath
  rcases hpath with hpath | hpath | hpath | hpath
  · exact ⟨projectNames owner id, fun _ => isName_of_mem_projectNames, Nat.le_succ 2,
      hpath.trans projectDirectory_eq⟩
  · exact ⟨objectsNames owner id, fun _ => isName_of_mem_objectsNames,
      by simp [objectsNames, projectNames], hpath.trans objectsDirectory_eq⟩
  · exact ⟨objectsNames owner id ++ [object], isName_of_mem_objectFile hobject,
      by simp [objectsNames, projectNames], hpath.trans (objectFile_eq hobject)⟩
  · exact ⟨projectNames owner id ++ [Naming.fileName project ++ ".zip"], isName_of_mem_archiveFile,
      by simp [projectNames], hpath.trans archiveFile_eq⟩

end Layout

/-! ### Requests that may be made -/

namespace StagingArea

open Script (outcome)

variable {area : StagingArea} {t : FileTree} {names : List String}

/-- One more name behind names. -/
theorem text_hostPath_concat {x : String} (h : ∀ n ∈ names ++ [x], IsName n) (hne : names ≠ []) :
    (area.hostPath ("/".intercalate (names ++ [x]))).text =
      (area.hostPath ("/".intercalate names)).text ++ "/" ++ x := by
  have hnames : ∀ n ∈ names, IsName n := fun n hn => h n (List.mem_append_left _ hn)
  rw [hostPath_intercalate h, hostPath_intercalate hnames,
    String.intercalate_append_of_ne_nil hne (List.cons_ne_nil x []), String.intercalate_singleton]
  apply HostPath.text_join_concat (Text.head?_intercalate_ne fun n hn => (hnames n hn).1)
  intro hempty
  apply hne
  rw [← segments_intercalate hnames, hempty, Text.segments_empty]

theorem endsInName_hostPath (h : ∀ n ∈ names, IsName n) (hne : names ≠ []) :
    (area.hostPath ("/".intercalate names)).EndsInName := by
  obtain ⟨ys, y, rfl⟩ := (List.eq_nil_or_concat' names).resolve_left hne
  have hy : IsName y := h y (by simp)
  by_cases hys : ys = []
  · rw [hostPath_intercalate h, hys, List.nil_append, String.intercalate_singleton]
    exact HostPath.endsInName_join ⟨hy.1, hy.2.1⟩
  · exact HostPath.endsInName_of_text_eq ⟨hy.1, hy.2.1⟩ (.inr ⟨_, text_hostPath_concat h hys⟩)

/-- The path of the directory that a name is in. -/
theorem parent?_hostPath {x : String} (h : ∀ n ∈ names ++ [x], IsName n) (hne : names ≠ []) :
    (area.hostPath ("/".intercalate (names ++ [x]))).parent? =
      some (area.hostPath ("/".intercalate names)) := by
  have hx : IsName x := h x (by simp)
  have hnames : ∀ n ∈ names, IsName n := fun n hn => h n (List.mem_append_left _ hn)
  exact HostPath.parent?_append (endsInName_hostPath hnames hne) ⟨hx.1, hx.2.1⟩
    (text_hostPath_concat h hne)

/-- Names may be asked for if there are no links where the area is, also if it is not there yet. -/
theorem outcome_resolve_intercalate (ht : t.WellFormed)
    (hlinks : ∀ b, area.Settles t b → t.LinkFree b) (h : ∀ n ∈ names, IsName n)
    (hlong : 2 ≤ names.length) :
    outcome FileTree.perform (area.resolve ("/".intercalate names)) t =
      (.ok (area.hostPath ("/".intercalate names)), t) := by
  obtain ⟨ys, x, rfl⟩ := (List.eq_nil_or_concat' names).resolve_left fun hnil => by
    rw [hnil] at hlong
    cases hlong
  have hne : ys ≠ [] := by
    rintro rfl
    exact absurd hlong (by simp)
  rw [outcome_resolve]
  congr 1
  by_cases hthere : ∃ b, area.Based t b
  · obtain ⟨b, hb⟩ := hthere
    exact hb.verdict_eq (hlinks b ⟨t, .refl ht, hb⟩) h (by simp)
  · -- neither the path nor that of the directory leads anywhere
    have hnowhere : ∀ {zs : List String} {l : Location}, (∀ n ∈ zs, IsName n) → zs ≠ [] →
        t.locate (area.hostPath ("/".intercalate zs)) ≠ .ok l := by
      intro zs l hzs hnil hl
      obtain ⟨n, hfind⟩ := FileTree.locate_eq_ok_iff.mp hl
      exact hthere (exists_based_of_find hzs hnil hfind)
    apply verdict_eq_ok_of (up_not_mem_segments h)
    · intro l hl
      exact absurd hl (hnowhere h (by simp))
    · intro _ q l hq hl
      rw [parent?_hostPath h hne] at hq
      obtain rfl := Option.some.inj hq
      exact absurd hl (hnowhere (fun n hn => h n (List.mem_append_left _ hn)) hne)

end StagingArea

end SchemaForge
