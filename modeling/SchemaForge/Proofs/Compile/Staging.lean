import SchemaForge.Compile.Run
import SchemaForge.Proofs.Staging.Layout
import SchemaForge.Proofs.Staging.Site

/-!
# Staging the models

The three loops of a compile, each with what it has done when it succeeds: every model is in its
file, the files of no model are gone, and the files that are read back are those of the models. After the
first two the directory of model files is as it should be, and it stays so when the archive is
written next to it.
-/

namespace SchemaForge

namespace Generation

open Layout (objectsNames projectNames)
open Script (outcome)
open StagingArea (below)

variable {area : StagingArea} {t t' : FileTree} {b : Location} {owner : UserId} {id : ProjectId}
  {models : List GeneratedModel}

theorem ask_eq_ok_iff {α : Type} {c : StagingCall (Except StagingError α)} {a : α} :
    outcome area.perform (ask c) t = (.ok a, t') ↔ area.perform c t = (.ok a, t') := by
  unfold ask
  rw [Script.outcome_bind, Script.outcome_lift]
  rcases area.perform c t with ⟨e | a', t₁⟩
  · simp
  · simp

/-- The location of a model file. -/
def fileAt (b : Location) (owner : UserId) (id : ProjectId) (name : String) : Location :=
  below b (objectsNames owner id) ++ [.text name]

theorem fileAt_inj {name name' : String} :
    fileAt b owner id name = fileAt b owner id name' ↔ name = name' := by
  simp [fileAt]

/-! ### Writing the models -/

/-- Every model is in its file, and nothing else has changed. -/
theorem of_stage_eq_ok (site : area.Site t b (objectsNames owner id))
    (hnames : ∀ m ∈ models, IsName m.fileName) (hnodup : (models.map GeneratedModel.fileName).Nodup)
    (h : outcome area.perform (stage owner id models) t = (.ok (), t')) :
    t.Refiled t' ∧
      (∀ m ∈ models, area.Fits (objectsNames owner id) m.fileName ∧
        t'.get? (fileAt b owner id m.fileName) = some (.file (Text.utf8 m.file.source))) ∧
      ∀ l, (∀ m ∈ models, l ≠ fileAt b owner id m.fileName) → t'.get? l = t.get? l := by
  induction models generalizing t with
  | nil =>
    obtain ⟨-, rfl⟩ := Prod.mk.inj h
    exact ⟨.refl site.wellFormed, fun _ hm => absurd hm List.not_mem_nil, fun _ _ => rfl⟩
  | cons m rest ih =>
    obtain ⟨⟨⟩, t₁, hwrite, hrest⟩ := (Script.outcome_bind_eq_ok_iff _).mp h
    rw [ask_eq_ok_iff, stagedPath, Layout.objectFile_eq (hnames m List.mem_cons_self)] at hwrite
    obtain ⟨hfits, hput, hrefiled⟩ :=
      site.of_write_eq_ok (hnames m List.mem_cons_self) hwrite
    obtain ⟨hfresh, hnodup⟩ := List.nodup_cons.mp hnodup
    obtain ⟨hrefiled', hfiles, hothers⟩ := ih (site.refiled hrefiled)
      (fun m' hm' => hnames m' (List.mem_cons_of_mem _ hm')) hnodup hrest
    have hget : ∀ k, t₁.get? k =
        if k = fileAt b owner id m.fileName then some (.file (Text.utf8 m.file.source))
        else t.get? k := by
      rw [hput]
      exact FileTree.get?_put t (by simp) _
    refine ⟨hrefiled.trans hrefiled', fun m' hm' => ?_, fun l hl => ?_⟩
    · rcases List.mem_cons.mp hm' with rfl | hm'
      · -- the files that are written after it have other names
        refine ⟨hfits, ?_⟩
        rw [hothers, hget, if_pos rfl]
        intro m'' hm'' heq
        exact hfresh (fileAt_inj.mp heq ▸ List.mem_map_of_mem hm'')
      · exact hfiles m' hm'
    · rw [hothers l fun m' hm' => hl m' (List.mem_cons_of_mem _ hm'), hget,
        if_neg (hl m List.mem_cons_self)]

/-! ### Removing the other files -/

/-- A file is kept, or is removed before the others, or is gone already. -/
theorem prune_cons_eq_ok {directory name : String} {current rest : List String}
    (h : outcome area.perform (prune directory current (name :: rest)) t = (.ok (), t')) :
    name ∈ current ∧ outcome area.perform (prune directory current rest) t = (.ok (), t') ∨
      name ∉ current ∧ ∃ r t₁, area.perform (.delete (directory ++ "/" ++ name)) t = (r, t₁) ∧
        (r = .ok () ∨ ∃ path, r = .error (.fileNotFound path)) ∧
        outcome area.perform (prune directory current rest) t₁ = (.ok (), t') := by
  rw [prune] at h
  by_cases hname : name ∈ current
  · rw [if_neg (by simpa using hname)] at h
    exact .inl ⟨hname, h⟩
  · obtain ⟨r, t₁, hdelete⟩ : ∃ r t₁,
        area.perform (.delete (directory ++ "/" ++ name)) t = (r, t₁) := ⟨_, _, rfl⟩
    rw [if_pos (by simpa using hname), Script.outcome_bind, Script.outcome_lift, hdelete] at h
    dsimp only at h
    refine .inr ⟨hname, r, t₁, hdelete, ?_⟩
    rcases r with e | ⟨⟩
    · cases e
      case fileNotFound path => exact ⟨.inr ⟨path, rfl⟩, h⟩
      all_goals cases h
    · exact ⟨.inl rfl, h⟩

/-- A file that was there is gone, whatever the answer is, and nothing else has changed. -/
theorem of_delete_file (site : area.Site t b (objectsNames owner id)) {name : String}
    {content : Bytes} (hfile : t.get? (fileAt b owner id name) = some (.file content))
    {r : Except StagingError Unit} (hdelete : area.perform
      (.delete (Layout.objectsDirectory owner id ++ "/" ++ name)) t = (r, t'))
    (hr : r = .ok () ∨ ∃ path, r = .error (.fileNotFound path)) :
    t.Refiled t' ∧
      ∀ k, t'.get? k = if k = fileAt b owner id name then none else t.get? k := by
  have hisName : IsName name :=
    site.wellFormed.named _ _ hfile name (List.mem_append_right _ (List.mem_singleton_self _))
  rw [Layout.objectsDirectory_append_eq] at hdelete
  rw [site.of_delete hisName hfile hdelete hr]
  exact ⟨.erase site.wellFormed hfile, FileTree.get?_erase t (by simp)⟩

/-- The files that belong to no current model are gone, and nothing else has changed. -/
theorem of_prune_eq_ok (site : area.Site t b (objectsNames owner id)) {current staged : List String}
    (hstaged : ∀ name ∈ staged, ∃ content, t.get? (fileAt b owner id name) = some (.file content))
    (hnodup : staged.Nodup)
    (h : outcome area.perform (prune (Layout.objectsDirectory owner id) current staged) t =
      (.ok (), t')) :
    t.Refiled t' ∧
      (∀ name ∈ staged, name ∉ current → t'.get? (fileAt b owner id name) = none) ∧
      ∀ l, (∀ name ∈ staged, name ∉ current → l ≠ fileAt b owner id name) →
        t'.get? l = t.get? l := by
  induction staged generalizing t with
  | nil =>
    obtain ⟨-, rfl⟩ := Prod.mk.inj h
    exact ⟨.refl site.wellFormed, fun _ hm => absurd hm List.not_mem_nil, fun _ _ => rfl⟩
  | cons name rest ih =>
    obtain ⟨hfresh, hnodup⟩ := List.nodup_cons.mp hnodup
    rcases prune_cons_eq_ok h with ⟨hname, hrest⟩ | ⟨hname, r, t₁, hdelete, hr, hrest⟩
    · -- the file is current and stays
      obtain ⟨hrefiled, hgone, hothers⟩ :=
        ih site (fun n hn => hstaged n (List.mem_cons_of_mem _ hn)) hnodup hrest
      refine ⟨hrefiled, fun n hn hstale => ?_, fun l hl => ?_⟩
      · rcases List.mem_cons.mp hn with rfl | hn
        · exact absurd hname hstale
        · exact hgone n hn hstale
      · exact hothers l fun n hn => hl n (List.mem_cons_of_mem _ hn)
    · -- the file goes away, and those that are left to look at are other files
      obtain ⟨content, hfile⟩ := hstaged name List.mem_cons_self
      obtain ⟨hrefiled, hget⟩ := of_delete_file site hfile hdelete hr
      have hothers : ∀ n ∈ rest, fileAt b owner id n ≠ fileAt b owner id name := by
        intro n hn heq
        exact hfresh (fileAt_inj.mp heq ▸ hn)
      obtain ⟨hrefiled', hgone, hsame⟩ := ih (site.refiled hrefiled)
        (fun n hn => by
          rw [hget, if_neg (hothers n hn)]
          exact hstaged n (List.mem_cons_of_mem _ hn)) hnodup hrest
      refine ⟨hrefiled.trans hrefiled', fun n hn hstale => ?_, fun l hl => ?_⟩
      · rcases List.mem_cons.mp hn with rfl | hn
        · rw [hsame _ fun n' hn' _ => (hothers n' hn').symm, hget, if_pos rfl]
        · exact hgone n hn hstale
      · rw [hsame l fun n hn => hl n (List.mem_cons_of_mem _ hn), hget,
          if_neg (hl name List.mem_cons_self hname)]

/-! ### Reading the models back -/

/-- A model as an entry of the archive. -/
def entry (project : String) (m : GeneratedModel) : Archive.Entry :=
  ⟨entryName project m.file.path, Text.utf8 m.file.source⟩

theorem of_collect_eq_ok (site : area.Site t b (objectsNames owner id))
    (hnames : ∀ m ∈ models, IsName m.fileName)
    (hfiles : ∀ m ∈ models,
      t.get? (fileAt b owner id m.fileName) = some (.file (Text.utf8 m.file.source)))
    {project : String} {entries : List Archive.Entry}
    (h : outcome area.perform (collect owner id project models) t = (.ok entries, t')) :
    t' = t ∧ entries = models.map (entry project) := by
  induction models generalizing entries t' with
  | nil =>
    obtain ⟨hentries, rfl⟩ := Prod.mk.inj h
    exact ⟨rfl, (Except.ok.inj hentries).symm⟩
  | cons m rest ih =>
    obtain ⟨content, t₁, hread, h⟩ := (Script.outcome_bind_eq_ok_iff _).mp h
    obtain ⟨entries', t₂, hrest, h⟩ := (Script.outcome_bind_eq_ok_iff _).mp h
    rw [ask_eq_ok_iff, stagedPath, Layout.objectFile_eq (hnames m List.mem_cons_self),
      site.read_eq_ok_iff (hnames m List.mem_cons_self)] at hread
    obtain ⟨rfl, -, hfile⟩ := hread
    obtain ⟨rfl, rfl⟩ := ih (fun m' hm' => hnames m' (List.mem_cons_of_mem _ hm'))
      (fun m' hm' => hfiles m' (List.mem_cons_of_mem _ hm')) hrest
    obtain ⟨hentries, rfl⟩ := Prod.mk.inj h
    have hcontent := hfile.symm.trans (hfiles m List.mem_cons_self)
    -- what has been read is what has been written
    obtain rfl := Node.file.inj (Option.some.inj hcontent)
    exact ⟨rfl, (Except.ok.inj hentries).symm⟩

/-! ### The directory of model files -/

/-- The directory of model files has the files of the models and no others. -/
structure Staged (area : StagingArea) (t : FileTree) (b : Location) (owner : UserId)
    (id : ProjectId) (models : List GeneratedModel) : Prop where
  site : area.Site t b (objectsNames owner id)
  sound : (area.hostPath (Layout.objectsDirectory owner id)).Sound
  named : ∀ m ∈ models, IsName m.fileName
  distinct : (models.map GeneratedModel.fileName).Nodup
  fits : ∀ m ∈ models, area.Fits (objectsNames owner id) m.fileName
  file : ∀ m ∈ models,
    t.get? (fileAt b owner id m.fileName) = some (.file (Text.utf8 m.file.source))
  only : ∀ name content, t.get? (fileAt b owner id name) = some (.file content) →
    name ∈ models.map GeneratedModel.fileName

theorem staged_of_stage_prune (site : area.Site t b (objectsNames owner id))
    (hnames : ∀ m ∈ models, IsName m.fileName) (hnodup : (models.map GeneratedModel.fileName).Nodup)
    {t₁ t₂ : FileTree} {listed : List String}
    (hstage : outcome area.perform (stage owner id models) t = (.ok (), t₁))
    (hlist : area.perform (.list (Layout.objectsDirectory owner id)) t₁ = (.ok listed, t₂))
    (hprune : outcome area.perform (prune (Layout.objectsDirectory owner id)
      (models.map GeneratedModel.fileName) listed) t₂ = (.ok (), t')) :
    Staged area t' b owner id models := by
  obtain ⟨hrefiled, hfiles, -⟩ := of_stage_eq_ok site hnames hnodup hstage
  have site₁ := site.refiled hrefiled
  rw [Layout.objectsDirectory_eq, site₁.list_eq_ok_iff, ← Layout.objectsDirectory_eq] at hlist
  obtain ⟨rfl, hsound, rfl⟩ := hlist
  have hlisted : ∀ {name},
      name ∈ StagingArea.fileNames (t₂.entries (below b (objectsNames owner id))) ↔
        ∃ content, t₂.get? (fileAt b owner id name) = some (.file content) :=
    StagingArea.mem_fileNames_entries_iff site₁.wellFormed
  obtain ⟨hrefiled', hgone, hsame⟩ := of_prune_eq_ok site₁ (fun _ hname => hlisted.mp hname)
    (StagingArea.nodup_fileNames_entries site₁.wellFormed) hprune
  refine ⟨site₁.refiled hrefiled', hsound, hnames, hnodup, fun m hm => (hfiles m hm).1,
    fun m hm => ?_, fun name content hcontent => ?_⟩
  · rw [hsame, (hfiles m hm).2]
    intro name _ hstale heq
    exact hstale (fileAt_inj.mp heq ▸ List.mem_map_of_mem hm)
  · -- a file that no model belongs to would have been listed, and removed
    by_contra hstale
    have hkeep : t'.get? (fileAt b owner id name) = t₂.get? (fileAt b owner id name) := by
      apply hsame
      intro name' hname' hstale' heq
      obtain rfl := fileAt_inj.mp heq
      rw [hgone name hname' hstale'] at hcontent
      cases hcontent
    have hname := hlisted.mpr ⟨content, hkeep.symm.trans hcontent⟩
    rw [hgone name hname hstale] at hcontent
    cases hcontent

namespace Staged

variable (staged : Staged area t b owner id models)

include staged

theorem perform_list :
    area.perform (.list (Layout.objectsDirectory owner id)) t =
      (.ok ((models.map GeneratedModel.fileName).mergeSort fun x y => decide (x ≤ y)), t) := by
  rw [Layout.objectsDirectory_eq, staged.site.list_eq_ok_iff, ← Layout.objectsDirectory_eq]
  refine ⟨rfl, staged.sound, ?_⟩
  apply StagingArea.fileNames_entries_eq staged.site.wellFormed staged.distinct
  intro name
  constructor
  · intro hname
    obtain ⟨m, hm, rfl⟩ := List.mem_map.mp hname
    exact ⟨_, staged.file m hm⟩
  · rintro ⟨content, hcontent⟩
    exact staged.only name content hcontent

theorem perform_read {m : GeneratedModel} (hm : m ∈ models) :
    area.perform (.read (stagedPath owner id m)) t = (.ok (Text.utf8 m.file.source), t) := by
  rw [stagedPath, Layout.objectFile_eq (staged.named m hm),
    staged.site.read_eq_ok_iff (staged.named m hm)]
  exact ⟨rfl, staged.fits m hm, staged.file m hm⟩

/-- The archive is written next to the directory, and so the models are still staged. -/
theorem of_write_archive {project : String} {bytes : Bytes}
    (h : area.perform (.write (Layout.archiveFile owner id project) bytes) t = (.ok (), t')) :
    Staged area t' b owner id models ∧
      area.perform (.read (Layout.archiveFile owner id project)) t' = (.ok bytes, t') := by
  have hproject : area.Site t b (projectNames owner id) := staged.site.outer
  have hname : IsName (Naming.fileName project ++ ".zip") := isName_archive project
  rw [Layout.archiveFile_eq] at h ⊢
  obtain ⟨hfits, hput, hrefiled⟩ := hproject.of_write_eq_ok hname h
  have hget : ∀ k, t'.get? k =
      if k = below b (projectNames owner id) ++ [.text (Naming.fileName project ++ ".zip")] then
        some (.file bytes)
      else t.get? k := by
    rw [hput]
    exact FileTree.get?_put t (by simp) _
  have hsame : ∀ name, t'.get? (fileAt b owner id name) = t.get? (fileAt b owner id name) := by
    intro name
    rw [hget, if_neg]
    intro heq
    -- model files are one directory deeper than the archive
    have hlength := congrArg List.length heq
    simp [fileAt, below, objectsNames] at hlength
  refine ⟨{ staged with
    site := staged.site.refiled hrefiled
    file := fun m hm => ?_
    only := fun name content hcontent => ?_ }, ?_⟩
  · rw [hsame]
    exact staged.file m hm
  · rw [hsame] at hcontent
    exact staged.only name content hcontent
  · rw [(hproject.refiled hrefiled).read_eq_ok_iff hname]
    exact ⟨rfl, hfits, by rw [hget, if_pos rfl]⟩

end Staged

end Generation

end SchemaForge
