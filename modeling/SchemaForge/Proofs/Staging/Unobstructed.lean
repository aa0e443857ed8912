import SchemaForge.Proofs.Staging.Approach
import SchemaForge.Proofs.Staging.Frame
import SchemaForge.Proofs.Staging.Tidy

/-!
# Areas where nothing is in the way

In an area without links, where there are no files in the places of directories and no directories in
the places of files, every request of a compile succeeds. Whatever else is in the area does not
matter, and its own directory may be missing.
-/

namespace SchemaForge

open FileTree (AtMostFile)
open Layout (objectsNames projectNames)

namespace Layout

/-- A place in which a compile stages a file: the names of the directory, and that of the file. -/
inductive StagedFile : List String → String → Prop
  | model {object : String} (owner : UserId) (id : ProjectId)
      (named : Naming.checkObjectName object = .ok ()) :
      StagedFile (objectsNames owner id) (object ++ ".js")
  | archive {project : String} (owner : UserId) (id : ProjectId)
      (named : Naming.checkProjectName project = .ok ()) :
      StagedFile (projectNames owner id) (Naming.fileName project ++ ".zip")

variable {names : List String} {x : String}

theorem StagedFile.filePlace (h : StagedFile names x) : StagingArea.FilePlace names x := by
  cases h with
  | model owner id named => exact StagingArea.filePlace_object (layoutName_of_checkObjectName named)
  | archive owner id named =>
    exact StagingArea.filePlace_archive (Naming.length_le_of_checkProjectName named)

/-- A file is staged in the directory of model files, or one above it. -/
theorem StagedFile.exists_above (h : StagedFile names x) :
    ∃ owner id, names <+: objectsNames owner id := by
  cases h with
  | model owner id named => exact ⟨owner, id, List.prefix_refl _⟩
  | archive owner id named => exact ⟨owner, id, List.prefix_append _ _⟩

/-- No file is staged where a directory is to be. -/
theorem StagedFile.not_above (h : StagedFile names x) (owner : UserId) (id : ProjectId) :
    ¬names ++ [x] <+: objectsNames owner id :=
  fun habove => h.filePlace.file
    ((StagingArea.directoryPlace_objectsNames owner id).above (habove.map _))

end Layout

namespace StagingArea

open Layout (StagedFile)

variable {area : StagingArea} {t t' : FileTree} {b : Location} {owner : UserId} {id : ProjectId}
  {names : List String} {x : String} {content : Bytes}

/-- Nothing is in the way of a compile: there are no links, in the places of directories there is
nothing else, and in those of files there is at most a file. The file system is ready to take all
of the paths. -/
structure Unobstructed (area : StagingArea) (t : FileTree) (b : Location) : Prop where
  approach : area.Approach t b
  linkFree : t.LinkFree b
  sound : ∀ owner id, (area.hostPath (Layout.objectsDirectory owner id)).Sound
  clear : ∀ owner id, t.Clear b (objectsNames owner id)
  fits : ∀ names x, StagedFile names x → area.Fits names x
  free : ∀ names x, StagedFile names x → t.AtMostFile (below b names ++ [.text x])
  /-- So it is with files that are left from earlier. -/
  left : ∀ owner id name content,
    t.get? (below b (objectsNames owner id) ++ [.text name]) = some (.file content) →
      area.Fits (objectsNames owner id) name

theorem shortName_of_above (hn : names <+: objectsNames owner id) : ∀ n ∈ names, ShortName n :=
  fun _ hmem => (Layout.layoutName_of_mem_objectsNames (hn.subset hmem)).shortName

theorem below_concat_eq : below b names ++ [.text x] = b ++ (names ++ [x]).map .text := by
  simp [below]

theorem names_of_below_concat {ys : List String}
    (h : below b names ++ [.text x] = b ++ ys.map .text) : names ++ [x] = ys := by
  rw [below_concat_eq] at h
  exact List.map_injective_iff.mpr (fun _ _ => FileName.text.inj) (List.append_cancel_left h)

/-- Nothing is in the way where there is nothing at all, the directory of the area perhaps. -/
theorem unobstructed_of_vacant (happroach : area.Approach t b) (hroomy : area.Roomy)
    (hroot : '\x00' ∉ area.root.text.toList)
    (hvacant : ∀ rest n, t.get? (b ++ rest) = some n → rest = [] ∧ n = .directory) :
    area.Unobstructed t b := by
  have hfree : ∀ {names : List String} {x : String} {n : Node},
      t.get? (below b names ++ [.text x]) ≠ some n := by
    intro names x n hn
    rw [below_concat_eq] at hn
    simpa using (hvacant _ n hn).1
  refine ⟨happroach, ?_, fun owner id => ?_, fun owner id ys hys n hn => (hvacant _ n hn).2,
    fun names x hplace => ⟨?_, ?_⟩, fun names x _ n hn => absurd hn hfree,
    fun owner id name content hfile => absurd hfile hfree⟩
  · rintro k target ⟨rest, rfl⟩ hlink
    cases (hvacant rest _ hlink).2
  · rw [Layout.objectsDirectory_eq]
    exact hroomy.sound_hostPath hroot (fun _ => Layout.layoutName_of_mem_objectsNames)
      (List.cons_ne_nil _ _) (by simp [objectsNames, projectNames])
  · apply hroomy.sound_hostPath hroot hplace.filePlace.named (by simp)
    rw [List.length_append, List.length_singleton]
    exact Nat.succ_le_succ hplace.filePlace.directory.length_le
  · exact (hplace.filePlace.named x (by simp)).shortName.short

namespace Unobstructed

variable (h : area.Unobstructed t b)

include h

theorem wellFormed : t.WellFormed := h.approach.wellFormed

/-- The area is there if a directory of it is. -/
theorem based (hdir : t.get? (below b names) = some .directory) : area.Based t b := by
  have hroot : t.get? b = some .directory := by
    by_cases hnil : names.map FileName.text = []
    · rwa [below, hnil, List.append_nil] at hdir
    · exact h.wellFormed.get?_of_append hnil hdir
  refine h.approach.based (fun hne => ?_) hroot
  exact (h.sound 0 0).of_sublist (HostPath.text_prefix_join (head?_dropWhile_ne _)).sublist hne

/-- A directory of a project that is there is a site. -/
theorem site (hn : names <+: objectsNames owner id)
    (hdir : t.get? (below b names) = some .directory) : area.Site t b names where
  wellFormed := h.wellFormed
  linkFree := h.linkFree
  based := h.based hdir
  named n hmem := (shortName_of_above hn n hmem).isName
  leads := FileTree.LeadsTo.leads_names ⟨h.wellFormed, (h.based hdir).leads⟩
    ((h.clear owner id).shorter hn) (shortName_of_above hn) hdir

/-! ### Requests -/

/-- The directory of model files can be made, also if the area is not there yet. -/
theorem makeDirectory (owner : UserId) (id : ProjectId) :
    ∃ t', area.perform (.makeDirectory (Layout.objectsDirectory owner id)) t = (.ok (), t') ∧
      area.Unobstructed t' b ∧ t'.get? (below b (objectsNames owner id)) = some .directory ∧
      ∀ k, t'.get? k ≠ t.get? k → k <+: below b (objectsNames owner id) := by
  rw [Layout.objectsDirectory_eq]
  obtain ⟨t', hrun, hext, hmade, hnew⟩ := h.approach.makeDirectory h.linkFree (h.clear owner id)
    (shortName_of_above (List.prefix_refl _)) (by simp [objectsNames, projectNames])
    (Layout.objectsDirectory_eq ▸ h.sound owner id)
  refine ⟨t', hrun, ⟨h.approach.extended hext, hext.linkFree h.linkFree, h.sound,
    fun owner id => (h.clear owner id).extended hext, h.fits, fun names x hplace n hn => ?_,
    fun owner' id' name content hfile => ?_⟩, hmade, hnew⟩
  · -- what is new is a directory, and no file is staged in its place
    by_cases hsame : t'.get? (below b names ++ [.text x]) = t.get? (below b names ++ [.text x])
    · exact h.free names x hplace n (hsame.symm.trans hn)
    · have habove := hnew _ hsame
      rw [below_concat_eq, ← below, below_prefix_below] at habove
      exact absurd habove (hplace.not_above owner id)
  · rcases hext.new (below b (objectsNames owner' id') ++ [.text name]) with hsame | ⟨-, hdir⟩
    · exact h.left owner' id' name content (hsame.symm.trans hfile)
    · rw [hfile] at hdir
      cases hdir

/-- A file is staged in a directory that is there. -/
theorem write (hplace : StagedFile names x) (hdir : t.get? (below b names) = some .directory)
    (content : Bytes) :
    area.perform (.write (pathTo names x) content) t =
        (.ok (), t.put (below b names ++ [.text x]) (.file content)) ∧
      area.Unobstructed (t.put (below b names ++ [.text x]) (.file content)) b := by
  obtain ⟨owner, id, hn⟩ := hplace.exists_above
  have hx := (hplace.filePlace.named x (by simp)).isName
  have hfree := h.free names x hplace
  have hrefiled := FileTree.Refiled.put h.wellFormed content hdir hx hfree
  have hget := FileTree.get?_put t (l := below b names ++ [.text x]) (by simp) (.file content)
  refine ⟨(h.site hn hdir).write_of_fits hx (h.fits names x hplace) hfree, ?_⟩
  refine ⟨h.approach.refiled ((FileTree.LeadsTo.mk h.wellFormed (h.based hdir).leads).directory)
    hrefiled, hrefiled.linkFree h.linkFree, h.sound, fun owner id ys hys n hn => ?_, h.fits,
    fun names' x' hplace' n hn => ?_, fun owner id name old hfile => ?_⟩
  · rw [hget, if_neg] at hn
    · exact h.clear owner id ys hys n hn
    · intro heq
      exact hplace.not_above owner id (names_of_below_concat heq.symm ▸ hys)
  · rw [hget] at hn
    split at hn
    · exact ⟨content, (Option.some.inj hn).symm⟩
    · exact h.free names' x' hplace' n hn
  · rw [hget] at hfile
    split at hfile
    · next heq =>
      -- the file is the one that is written, which fits
      obtain ⟨rfl, hname⟩ := List.append_inj' (names_of_below_concat (heq.trans below_concat_eq)) rfl
      rw [List.singleton_inj.mp hname]
      exact h.fits _ x hplace
    · exact h.left owner id name old hfile

/-- A file in the directory of model files can be removed. -/
theorem delete {name : String}
    (hfile : t.get? (below b (objectsNames owner id) ++ [.text name]) = some (.file content)) :
    area.perform (.delete (pathTo (objectsNames owner id) name)) t =
        (.ok (), t.erase (below b (objectsNames owner id) ++ [.text name])) ∧
      area.Unobstructed (t.erase (below b (objectsNames owner id) ++ [.text name])) b := by
  have hdir : t.get? (below b (objectsNames owner id)) = some .directory :=
    h.wellFormed.get?_of_append (List.cons_ne_nil _ _) hfile
  have hname : IsName name :=
    h.wellFormed.named _ _ hfile name (List.mem_append_right _ (List.mem_singleton_self _))
  have hrefiled := FileTree.Refiled.erase h.wellFormed hfile
  have hget : ∀ {k n}, (t.erase (below b (objectsNames owner id) ++ [.text name])).get? k = some n →
      t.get? k = some n := by
    intro k n hn
    rw [FileTree.get?_erase t (by simp)] at hn
    split at hn
    · cases hn
    · exact hn
  refine ⟨(h.site (List.prefix_refl _) hdir).delete_of_fits hname
    (h.left owner id name content hfile) hfile, ?_⟩
  exact ⟨h.approach.refiled ((FileTree.LeadsTo.mk h.wellFormed (h.based hdir).leads).directory)
    hrefiled, hrefiled.linkFree h.linkFree, h.sound,
    fun owner id ys hys n hn => h.clear owner id ys hys n (hget hn), h.fits,
    fun names x hplace n hn => h.free names x hplace n (hget hn),
    fun owner id name content hfile => h.left owner id name content (hget hfile)⟩

theorem list (hdir : t.get? (below b (objectsNames owner id)) = some .directory) :
    area.perform (.list (Layout.objectsDirectory owner id)) t =
      (.ok (fileNames (t.entries (below b (objectsNames owner id)))), t) := by
  rw [Layout.objectsDirectory_eq, (h.site (List.prefix_refl _) hdir).list_eq_ok_iff]
  exact ⟨rfl, Layout.objectsDirectory_eq ▸ h.sound owner id, rfl⟩

theorem read (hplace : StagedFile names x)
    (hfile : t.get? (below b names ++ [.text x]) = some (.file content)) :
    area.perform (.read (pathTo names x)) t = (.ok content, t) := by
  obtain ⟨owner, id, hn⟩ := hplace.exists_above
  have hdir : t.get? (below b names) = some .directory :=
    h.wellFormed.get?_of_append (List.cons_ne_nil _ _) hfile
  rw [(h.site hn hdir).read_eq_ok_iff (hplace.filePlace.named x (by simp)).isName]
  exact ⟨rfl, h.fits names x hplace, hfile⟩

end Unobstructed

end StagingArea

end SchemaForge
