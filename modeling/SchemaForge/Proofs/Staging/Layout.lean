import Mathlib.Data.Nat.Digits.Defs
import SchemaForge.Proofs.Files.Tree
import SchemaForge.Proofs.Staging.Joining

/-!
# Paths of the layout

The paths of the layout are names with slashes between them, and none of the names is a step to the
same directory or upwards.
-/

namespace SchemaForge

/-! ### Names -/

theorem isName_of_forall_char {s : String} (hne : s ≠ "") (hslash : ∀ c ∈ s.toList, c ≠ '/')
    (hdot : s ≠ "." ∧ s ≠ "..") : IsName s :=
  ⟨⟨hne, fun h => hslash '/' h rfl⟩, hdot.1, hdot.2⟩

/-- A name with an ending. -/
theorem isName_append {s ending : String} (hs : ∀ c ∈ s.toList, c ≠ '/')
    (hending : ∀ c ∈ ending.toList, c ≠ '/') (hlong : 2 < ending.length) :
    IsName (s ++ ending) := by
  have hlength : 2 < (s ++ ending).length := by
    rw [String.length_append]
    omega
  have hne : ∀ short : String, short.length ≤ 2 → s ++ ending ≠ short := by
    rintro short hshort rfl
    omega
  apply isName_of_forall_char (hne "" (by decide)) _ ⟨hne "." (by decide), hne ".." (by decide)⟩
  intro c hc
  rw [String.toList_append] at hc
  exact (List.mem_append.mp hc).elim (hs c) (hending c)

theorem isDigit_of_mem_toString {n : UInt64} {c : Char} (hc : c ∈ (toString n).toList) :
    c.isDigit := by
  have htoList : (toString n).toList = Nat.toDigits 10 n.toNat := Nat.toList_repr
  rw [htoList] at hc
  exact Nat.isDigit_of_mem_toDigits (by decide) (by decide) hc

theorem isName_toString (n : UInt64) : IsName (toString n) := by
  have hdigit : ∀ c ∈ (toString n).toList, c.isDigit := fun _ => isDigit_of_mem_toString
  apply isName_of_forall_char
  · intro hempty
    have htoList : (toString n).toList = Nat.toDigits 10 n.toNat := Nat.toList_repr
    rw [hempty] at htoList
    exact Nat.toDigits_ne_nil htoList.symm
  · rintro c hc rfl
    exact absurd (hdigit _ hc) (by decide)
  · constructor
    · intro hdot
      rw [hdot] at hdigit
      exact absurd (hdigit '.' (by decide)) (by decide)
    · intro hdots
      rw [hdots] at hdigit
      exact absurd (hdigit '.' (by decide)) (by decide)

/-- No character that may not stand in the name of a file is left in one. -/
theorem inFileName_of_mem_fileName {name : String} {c : Char}
    (hc : c ∈ (Naming.fileName name).toList) : Naming.inFileName c := by
  rw [Naming.fileName, String.toList_ofList] at hc
  obtain ⟨d, -, rfl⟩ := List.mem_map.mp hc
  split
  · next hallowed => exact hallowed
  · decide

/-- The archive of a project has a name, whatever the name of the project. -/
theorem isName_archive (name : String) : IsName (Naming.fileName name ++ ".zip") := by
  apply isName_append _ (by simp) (by decide)
  rintro c hc rfl
  exact absurd (inFileName_of_mem_fileName hc) (by decide)

/-! ### Short names -/

/-- A name of a file or a directory of the layout: one without the character that no path has, and
short enough for every file system. -/
structure LayoutName (s : String) : Prop where
  isName : IsName s
  no_nul : '\x00' ∉ s.toList
  short : (Text.utf8 s).length ≤ 124

/-- A character takes at most four bytes. -/
theorem length_utf8_le (s : String) : (Text.utf8 s).length ≤ 4 * s.length := by
  have hchars : ∀ cs : List Char, (cs.flatMap String.utf8EncodeChar).length ≤ 4 * cs.length := by
    intro cs
    induction cs with
    | nil => simp
    | cons c rest ih =>
      have hc := c.utf8Size_le_four
      rw [List.flatMap_cons, List.length_append, String.length_utf8EncodeChar, List.length_cons]
      omega
  exact hchars s.toList

/-- A name of so few characters that four bytes for each of them are not too many. -/
theorem layoutName_of_length_le {s : String} (hname : IsName s) (hnul : '\x00' ∉ s.toList)
    (hlength : s.length ≤ 31) : LayoutName s :=
  ⟨hname, hnul, Nat.le_trans (length_utf8_le s) (Nat.mul_le_mul_left 4 hlength)⟩

theorem layoutName_toString (n : UInt64) : LayoutName (toString n) := by
  apply layoutName_of_length_le (isName_toString n)
  · intro hnul
    exact absurd (isDigit_of_mem_toString hnul) (by decide)
  · have hlength : (toString n).length ≤ 20 :=
      Nat.repr_length n.toNat 20 (by decide) (Nat.lt_trans n.toNat_lt (by decide))
    omega

/-- A text of at most thirty characters, with a short ending. -/
theorem layoutName_append {s ending : String} (hname : IsName (s ++ ending))
    (hs : '\x00' ∉ s.toList) (hending : '\x00' ∉ ending.toList) (hlength : s.length ≤ 30)
    (hshort : (Text.utf8 ending).length ≤ 4) : LayoutName (s ++ ending) where
  isName := hname
  no_nul := by
    rw [String.toList_append]
    exact fun hnul => (List.mem_append.mp hnul).elim hs hending
  short := by
    have hbytes := length_utf8_le s
    rw [Text.utf8_append, List.length_append]
    omega

/-- The archive of a project has a short name if the project has one. -/
theorem layoutName_archive {name : String} (h : name.length ≤ 30) :
    LayoutName (Naming.fileName name ++ ".zip") := by
  apply layoutName_append (isName_archive name) _ (by decide) _ (by decide)
  · exact fun hnul => absurd (inFileName_of_mem_fileName hnul) (by decide)
  · rwa [Naming.fileName, String.length_ofList, List.length_map, String.length_toList]

namespace Layout

/-! ### Joined names -/

theorem joinPath_names {names : List String} (h : ∀ n ∈ names, IsName n) :
    joinPath names = "/".intercalate names :=
  joinPath_eq fun n hn => (h n hn).1.bare

/-- One more name behind joined names. -/
theorem joinPath_joinPath_name {names : List String} {n : String} (h : ∀ m ∈ names, IsName m)
    (hn : IsName n) : joinPath [joinPath names, n] = "/".intercalate (names ++ [n]) := by
  rw [joinPath_joinPath_cons]
  exact joinPath_names (List.forall_mem_append.mpr ⟨h, List.forall_mem_singleton.mpr hn⟩)

/-! ### Directories and files -/

/-- The names on the way to the directory of a project. -/
def projectNames (owner : UserId) (project : ProjectId) : List String :=
  [toString owner, "projects", toString project]

/-- The names on the way to the directory of model files. -/
def objectsNames (owner : UserId) (project : ProjectId) : List String :=
  projectNames owner project ++ ["objects"]

variable {owner : UserId} {project : ProjectId} {name : String}

theorem isName_of_mem_projectNames (h : name ∈ projectNames owner project) : IsName name := by
  rcases List.mem_cons.mp h with rfl | h
  · exact isName_toString owner
  rcases List.mem_cons.mp h with rfl | h
  · decide
  · exact List.mem_singleton.mp h ▸ isName_toString project

theorem isName_of_mem_objectsNames (h : name ∈ objectsNames owner project) : IsName name := by
  rcases List.mem_append.mp h with h | h
  · exact isName_of_mem_projectNames h
  · exact List.mem_singleton.mp h ▸ by decide

theorem layoutName_of_mem_objectsNames (h : name ∈ objectsNames owner project) :
    LayoutName name := by
  have hwords : LayoutName "projects" ∧ LayoutName "objects" :=
    ⟨⟨by decide, by decide, by decide⟩, ⟨by decide, by decide, by decide⟩⟩
  rcases List.mem_append.mp h with h | h
  · rcases List.mem_cons.mp h with rfl | h
    · exact layoutName_toString owner
    rcases List.mem_cons.mp h with rfl | h
    · exact hwords.1
    · exact List.mem_singleton.mp h ▸ layoutName_toString project
  · exact List.mem_singleton.mp h ▸ hwords.2

theorem projectDirectory_eq :
    projectDirectory owner project = "/".intercalate (projectNames owner project) :=
  joinPath_names fun _ => isName_of_mem_projectNames

theorem objectsDirectory_eq_joinPath :
    objectsDirectory owner project = joinPath (objectsNames owner project) :=
  joinPath_joinPath_cons (projectNames owner project) ["objects"]

theorem objectsDirectory_eq :
    objectsDirectory owner project = "/".intercalate (objectsNames owner project) :=
  objectsDirectory_eq_joinPath.trans (joinPath_names fun _ => isName_of_mem_objectsNames)

theorem objectFile_eq (h : IsName name) :
    objectFile owner project name = "/".intercalate (objectsNames owner project ++ [name]) := by
  unfold objectFile
  rw [objectsDirectory_eq_joinPath]
  exact joinPath_joinPath_name (fun _ => isName_of_mem_objectsNames) h

theorem archiveFile_eq :
    archiveFile owner project name =
      "/".intercalate (projectNames owner project ++ [Naming.fileName name ++ ".zip"]) :=
  joinPath_joinPath_name (fun _ => isName_of_mem_projectNames) (isName_archive name)

/-- The path of a file that is found in the directory of model files. -/
theorem objectsDirectory_append_eq (name : String) :
    objectsDirectory owner project ++ "/" ++ name =
      "/".intercalate (objectsNames owner project ++ [name]) := by
  have hne : objectsNames owner project ≠ [] := List.cons_ne_nil _ _
  rw [objectsDirectory_eq, String.intercalate_append_of_ne_nil hne (List.cons_ne_nil name []),
    String.intercalate_singleton]

end Layout

end SchemaForge
