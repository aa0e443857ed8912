import SchemaForge.Proofs.Staging.Approach
import SchemaForge.Proofs.Staging.Layout

/-!
# Tidy areas

A staging area that nobody else touches is tidy: directories are where the layout has directories,
files are where it has files, and all names are short. In a tidy area nothing gets in the way of a
request, so each request for a place of the layout succeeds, and leaves the area tidy.
-/

namespace SchemaForge

theorem LayoutName.shortName {s : String} (h : LayoutName s) : ShortName s :=
  ⟨h.isName, Nat.le_trans h.short (by decide)⟩

namespace StagingArea

variable {area : StagingArea} {t t' : FileTree} {b : Location} {names : List String} {x : String}

/-! ### Paths of short names -/

/-- Is the path of the area so short that all paths of the layout are short enough for a file
system? -/
def Roomy (area : StagingArea) : Prop := area.root.size + 625 < FileTree.pathLimit

instance (area : StagingArea) : Decidable area.Roomy := inferInstanceAs (Decidable (_ < _))

/-- Each name takes at most 124 bytes, and one more for the slash before it. -/
theorem length_utf8_intercalate_le (h : ∀ n ∈ names, LayoutName n) :
    (Text.utf8 ("/".intercalate names)).length ≤ 125 * names.length - 1 := by
  induction names with
  | nil => simp [Text.utf8]
  | cons n rest ih =>
    have hn := (h n List.mem_cons_self).short
    rcases rest with _ | ⟨m, rest⟩
    · rw [String.intercalate_singleton, List.length_singleton]
      omega
    · have hrest := ih fun m' hm' => h m' (List.mem_cons_of_mem _ hm')
      have hslash : (Text.utf8 "/").length = 1 := by decide
      rw [String.intercalate_cons_cons, Text.utf8_append, Text.utf8_append, List.length_append,
        List.length_append]
      rw [List.length_cons] at hrest
      rw [List.length_cons, List.length_cons]
      omega

theorem Based.no_nul (based : area.Based t b) : '\x00' ∉ area.root.text.toList := by
  unfold Based at based
  split at based
  · next hempty => simp [hempty]
  · exact (FileTree.find_eq_ok_iff.mp based).1.no_nul

/-- A file system is ready to take every path of at most five names of the layout. -/
theorem Roomy.sound_hostPath (hroomy : area.Roomy) (hroot : '\x00' ∉ area.root.text.toList)
    (h : ∀ n ∈ names, LayoutName n) (hne : names ≠ []) (hlength : names.length ≤ 5) :
    (area.hostPath ("/".intercalate names)).Sound := by
  have hnames : ∀ n ∈ names, IsName n := fun n hn => (h n hn).isName
  refine ⟨fun hnul => ?_, fun hempty => ?_, ?_⟩
  · rw [hostPath_intercalate hnames] at hnul
    rcases HostPath.mem_text_join hnul with hnul | hnul | hnul
    · exact hroot hnul
    · cases hnul
    · rcases Text.mem_intercalate hnul with hslash | ⟨n, hn, hnul⟩
      · exact absurd hslash (by decide)
      · exact (h n hn).no_nul hnul
  · have hfull : (area.hostPath ("/".intercalate names)).names = area.root.names ++ names :=
      names_hostPath_intercalate hnames
    rw [HostPath.names, hempty, Text.segments_empty] at hfull
    exact hne (List.append_eq_nil_iff.mp hfull.symm).2
  · have hjoin := HostPath.size_join_le area.root ("/".intercalate names)
    have hrelative := length_utf8_intercalate_le h
    have hpos : 0 < names.length := List.length_pos_iff.mpr hne
    rw [hostPath_intercalate hnames]
    unfold Roomy at hroomy
    omega

/-! ### Places -/

/-- Is this the place of a directory? The names are those behind the area. Projects have their
directories three names deep; at all other places of the layout there are files. -/
def DirectoryPlace (rest : Location) : Prop :=
  rest.length ≤ 3 ∨ rest.length = 4 ∧ rest.getLast? = some (.text "objects")

theorem DirectoryPlace.above {rest rest' : Location} (h : DirectoryPlace rest)
    (habove : rest' <+: rest) : DirectoryPlace rest' := by
  rcases h with h | ⟨h, hlast⟩
  · exact .inl (Nat.le_trans habove.length_le h)
  · by_cases hlength : rest'.length = rest.length
    · rw [habove.eq_of_length hlength]
      exact .inr ⟨h, hlast⟩
    · have hle := habove.length_le
      exact .inl (by omega)

theorem DirectoryPlace.length_le (h : DirectoryPlace (names.map .text)) : names.length ≤ 4 := by
  rw [← List.length_map FileName.text]
  rcases h with h | ⟨h, -⟩
  · omega
  · omega

/-- What may be at a place behind the area. -/
structure Laid (rest : Location) (n : Node) : Prop where
  named : ∀ s, .text s ∈ rest → LayoutName s
  directory : DirectoryPlace rest → n = .directory
  file : ¬DirectoryPlace rest → ∃ content, n = .file content

/-- A place of a file, in a place of a directory. -/
structure FilePlace (names : List String) (x : String) : Prop where
  named : ∀ n ∈ names ++ [x], LayoutName n
  directory : DirectoryPlace (names.map .text)
  file : ¬DirectoryPlace ((names ++ [x]).map .text)

theorem directoryPlace_objectsNames (owner : UserId) (id : ProjectId) :
    DirectoryPlace ((Layout.objectsNames owner id).map .text) :=
  .inr ⟨rfl, rfl⟩

theorem filePlace_object {owner : UserId} {id : ProjectId} (hx : LayoutName x) :
    FilePlace (Layout.objectsNames owner id) x where
  named n hn := by
    rcases List.mem_append.mp hn with hn | hn
    · exact Layout.layoutName_of_mem_objectsNames hn
    · exact List.mem_singleton.mp hn ▸ hx
  directory := directoryPlace_objectsNames owner id
  file := by simp [DirectoryPlace, Layout.objectsNames, Layout.projectNames]

/-- The archive of a project is next to the directory of model files, and has another name. -/
theorem filePlace_archive {owner : UserId} {id : ProjectId} {name : String}
    (hname : name.length ≤ 30) :
    FilePlace (Layout.projectNames owner id) (Naming.fileName name ++ ".zip") where
  named n hn := by
    rcases List.mem_append.mp hn with hn | hn
    · exact Layout.layoutName_of_mem_objectsNames (List.mem_append_left _ hn)
    · exact List.mem_singleton.mp hn ▸ layoutName_archive hname
  directory := .inl (Nat.le_refl 3)
  file := by
    rintro (hlength | ⟨-, hlast⟩)
    · simp [Layout.projectNames] at hlength
    · rw [List.map_append, List.map_singleton, List.getLast?_concat] at hlast
      have hend : (Naming.fileName name ++ ".zip").toList.getLast? = "objects".toList.getLast? :=
        congrArg (fun s => s.toList.getLast?) (FileName.text.inj (Option.some.inj hlast))
      rw [String.toList_append, List.getLast?_append_of_ne_nil _ (by decide)] at hend
      exact absurd hend (by decide)

/-! ### Tidy areas -/

/-- Directories and files are where the layout has them, and paths are short enough. -/
structure Tidy (area : StagingArea) (t : FileTree) (b : Location) : Prop where
  wellFormed : t.WellFormed
  based : area.Based t b
  roomy : area.Roomy
  laid : ∀ rest n, t.get? (b ++ rest) = some n → Laid rest n

theorem Based.get?_base (based : area.Based t b) (ht : t.WellFormed) :
    t.get? b = some .directory :=
  (FileTree.LeadsTo.mk ht based.leads).directory

/-- An area with nothing in it is tidy. -/
theorem tidy_of_empty (ht : t.WellFormed) (based : area.Based t b) (hroomy : area.Roomy)
    (hempty : ∀ rest n, t.get? (b ++ rest) = some n → rest = []) : area.Tidy t b := by
  refine ⟨ht, based, hroomy, fun rest n hn => ?_⟩
  obtain rfl := hempty rest n hn
  rw [List.append_nil, based.get?_base ht] at hn
  exact ⟨fun s hs => absurd hs List.not_mem_nil, fun _ => (Option.some.inj hn).symm,
    fun hfile => absurd (.inl (Nat.zero_le 3)) hfile⟩

namespace Tidy

variable (tidy : area.Tidy t b)

include tidy

/-- A tidy area stays so if whatever is new is as the layout has it. -/
theorem changed (ht : t'.WellFormed) (hkept : t.Kept t')
    (h : ∀ rest n, t'.get? (b ++ rest) = some n → t'.get? (b ++ rest) ≠ t.get? (b ++ rest) →
      Laid rest n) : area.Tidy t' b := by
  refine ⟨ht, tidy.based.kept hkept, tidy.roomy, fun rest n hn => ?_⟩
  by_cases hsame : t'.get? (b ++ rest) = t.get? (b ++ rest)
  · exact tidy.laid rest n (hsame.symm.trans hn)
  · exact h rest n hn hsame

theorem linkFree : t.LinkFree b := by
  rintro k target ⟨rest, rfl⟩ hlink
  have hlaid := tidy.laid rest _ hlink
  by_cases hplace : DirectoryPlace rest
  · cases hlaid.directory hplace
  · obtain ⟨content, hfile⟩ := hlaid.file hplace
    cases hfile

theorem clear (hplace : DirectoryPlace (names.map .text)) : t.Clear b names :=
  fun _ hys n hn => (tidy.laid _ n hn).directory (hplace.above (hys.map _))

/-- A directory of the layout that is there is a site. -/
theorem site (hnames : ∀ n ∈ names, LayoutName n) (hplace : DirectoryPlace (names.map .text))
    (hdir : t.get? (below b names) = some .directory) : area.Site t b names := by
  refine ⟨tidy.wellFormed, tidy.linkFree, tidy.based, fun n hn => (hnames n hn).isName, ?_⟩
  exact FileTree.LeadsTo.leads_names ⟨tidy.wellFormed, tidy.based.leads⟩ (tidy.clear hplace)
    (fun n hn => (hnames n hn).shortName) hdir

theorem fits (place : FilePlace names x) : area.Fits names x := by
  refine ⟨tidy.roomy.sound_hostPath tidy.based.no_nul place.named (by simp) ?_, ?_⟩
  · rw [List.length_append, List.length_singleton]
    exact Nat.succ_le_succ place.directory.length_le
  · exact (place.named x (List.mem_append_right _ (List.mem_singleton_self x))).shortName.short

theorem site_of_filePlace (place : FilePlace names x)
    (hdir : t.get? (below b names) = some .directory) : area.Site t b names :=
  tidy.site (fun n hn => place.named n (List.mem_append_left _ hn)) place.directory hdir

/-! ### Requests -/

/-- A directory of the layout is made where it is not there. -/
theorem makeDirectory (hnames : ∀ n ∈ names, LayoutName n) (hlong : 2 ≤ names.length)
    (hplace : DirectoryPlace (names.map .text)) :
    ∃ t', area.perform (.makeDirectory ("/".intercalate names)) t = (.ok (), t') ∧
      area.Tidy t' b ∧ t'.get? (below b names) = some .directory := by
  have hne : names ≠ [] := by
    rintro rfl
    cases hlong
  obtain ⟨t', hrun, hext, hmade, hnew⟩ := (tidy.based.approach tidy.wellFormed).makeDirectory
    tidy.linkFree (tidy.clear hplace) (fun n hn => (hnames n hn).shortName) hlong
    (tidy.roomy.sound_hostPath tidy.based.no_nul hnames hne (Nat.le_succ_of_le hplace.length_le))
  refine ⟨t', hrun, tidy.changed hext.wellFormed hext.kept fun rest n hn hchanged => ?_, hmade⟩
  have habove : rest <+: names.map .text :=
    (List.prefix_append_right_inj b).mp (hnew _ hchanged)
  have hdirectory : n = .directory := by
    rcases hext.new (b ++ rest) with hold | ⟨-, hdir⟩
    · exact absurd hold hchanged
    · exact Option.some.inj (hn.symm.trans hdir)
  refine ⟨fun s hs => ?_, fun _ => hdirectory, fun hfile => absurd (hplace.above habove) hfile⟩
  obtain ⟨y, hy, hs⟩ := List.mem_map.mp (habove.subset hs)
  exact FileName.text.inj hs ▸ hnames y hy

/-- A file of the layout is written in its directory. -/
theorem write (place : FilePlace names x) (hdir : t.get? (below b names) = some .directory)
    (content : Bytes) :
    ∃ t', area.perform (.write (pathTo names x) content) t = (.ok (), t') ∧ t.Refiled t' ∧
      area.Tidy t' b := by
  have hx := (place.named x (List.mem_append_right _ (List.mem_singleton_self x))).isName
  have hlocation : below b names ++ [.text x] = b ++ (names ++ [x]).map .text := by simp [below]
  have hfree : ∀ n, t.get? (below b names ++ [.text x]) = some n → ∃ old, n = .file old := by
    intro n hn
    rw [hlocation] at hn
    exact (tidy.laid _ n hn).file place.file
  -- all that is new is the file, and it is where the layout has one
  have hrefiled := FileTree.Refiled.put tidy.wellFormed content hdir hx hfree
  refine ⟨_, (tidy.site_of_filePlace place hdir).write_of_fits hx (tidy.fits place) hfree, hrefiled,
    tidy.changed hrefiled.wellFormed hrefiled.kept fun rest n hn hnew => ?_⟩
  rw [FileTree.get?_put t (by simp)] at hn hnew
  split at hn
  · next heq =>
    rw [hlocation] at heq
    obtain rfl := List.append_cancel_left heq
    refine ⟨fun s hs => ?_, fun h => absurd h place.file, fun _ => ⟨content, ?_⟩⟩
    · obtain ⟨y, hy, hs⟩ := List.mem_map.mp hs
      exact FileName.text.inj hs ▸ place.named y hy
    · exact (Option.some.inj hn).symm
  · next hne =>
    rw [if_neg hne] at hnew
    exact absurd rfl hnew

/-- A file of the layout that is there is removed. -/
theorem delete (place : FilePlace names x) {content : Bytes}
    (hfile : t.get? (below b names ++ [.text x]) = some (.file content)) :
    ∃ t', area.perform (.delete (pathTo names x)) t = (.ok (), t') ∧
      t' = t.erase (below b names ++ [.text x]) ∧ area.Tidy t' b := by
  have hx := (place.named x (List.mem_append_right _ (List.mem_singleton_self x))).isName
  have hdir : t.get? (below b names) = some .directory :=
    tidy.wellFormed.get?_of_append (List.cons_ne_nil _ _) hfile
  have hrefiled := FileTree.Refiled.erase tidy.wellFormed hfile
  refine ⟨_, (tidy.site_of_filePlace place hdir).delete_of_fits hx (tidy.fits place) hfile, rfl,
    tidy.changed hrefiled.wellFormed hrefiled.kept fun rest n hn hnew => ?_⟩
  rw [FileTree.get?_erase t (by simp)] at hn hnew
  split at hn
  · cases hn
  · next hne =>
    rw [if_neg hne] at hnew
    exact absurd rfl hnew

/-- A directory of the layout that is there is listed. -/
theorem list (hnames : ∀ n ∈ names, LayoutName n) (hne : names ≠ [])
    (hplace : DirectoryPlace (names.map .text))
    (hdir : t.get? (below b names) = some .directory) :
    area.perform (.list ("/".intercalate names)) t =
      (.ok (fileNames (t.entries (below b names))), t) := by
  rw [(tidy.site hnames hplace hdir).list_eq_ok_iff]
  exact ⟨rfl, tidy.roomy.sound_hostPath tidy.based.no_nul hnames hne
    (Nat.le_succ_of_le hplace.length_le), rfl⟩

end Tidy

end StagingArea

end SchemaForge
