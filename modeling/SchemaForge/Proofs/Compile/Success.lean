import SchemaForge.Proofs.Compile.Run
import SchemaForge.Proofs.Staging.Tidy

/-!
# Compiles that succeed

In a tidy area every step of a compile succeeds and leaves the area tidy. What was staged before
does not matter, nor does it matter whether the project has been compiled before under another name.
-/

namespace SchemaForge

namespace Archive

/-- Can entries be packed if their names are different and not too long? -/
def Able (pack : Packer) : Prop :=
  ∀ (compression : Compression) (entries : List Entry), (entries.map Entry.name).Nodup →
    (∀ e ∈ entries, (Text.utf8 e.name).length ≤ 65535) →
      ∃ bytes, pack compression entries = .ok bytes

theorem able_pack : Able pack :=
  fun _ _ hnodup hshort => ⟨_, pack_eq_ok_iff.mpr ⟨hnodup, hshort, rfl⟩⟩

end Archive

namespace Generation

open Layout (objectsNames projectNames)
open Script (outcome)
open StagingArea (below)

variable {area : StagingArea} {t t' : FileTree} {b : Location} {owner : UserId} {id : ProjectId}
  {models : List GeneratedModel}

/-- The area is tidy, and the directory of model files is there. -/
structure Ready (area : StagingArea) (t : FileTree) (b : Location) (owner : UserId)
    (id : ProjectId) : Prop where
  tidy : area.Tidy t b
  directory : t.get? (below b (objectsNames owner id)) = some .directory

namespace Ready

variable (ready : Ready area t b owner id)

include ready

theorem site : area.Site t b (objectsNames owner id) :=
  ready.tidy.site (fun _ => Layout.layoutName_of_mem_objectsNames)
    (StagingArea.directoryPlace_objectsNames owner id) ready.directory

/-- All models can be written. -/
theorem exists_stage (hnames : ∀ m ∈ models, LayoutName m.fileName) :
    ∃ t', outcome area.perform (stage owner id models) t = (.ok (), t') ∧
      Ready area t' b owner id := by
  induction models generalizing t with
  | nil => exact ⟨t, rfl, ready⟩
  | cons m rest ih =>
    have hm := hnames m List.mem_cons_self
    obtain ⟨t₁, hwrite, hrefiled, htidy⟩ := ready.tidy.write (StagingArea.filePlace_object hm)
      ready.directory (Text.utf8 m.file.source)
    obtain ⟨t', hrest, ready'⟩ := ih ⟨htidy, hrefiled.kept.directory _ ready.directory⟩
      fun m' hm' => hnames m' (List.mem_cons_of_mem _ hm')
    refine ⟨t', (Script.outcome_bind_eq_ok_iff _).mpr ⟨(), t₁, ?_, hrest⟩, ready'⟩
    rw [ask_eq_ok_iff, stagedPath, Layout.objectFile_eq hm.isName]
    exact hwrite

/-- A file that is there can be removed, and the other files are still there. -/
theorem exists_delete {name : String} {content : Bytes}
    (hfile : t.get? (fileAt b owner id name) = some (.file content)) :
    ∃ t', area.perform (.delete (Layout.objectsDirectory owner id ++ "/" ++ name)) t =
        (.ok (), t') ∧ Ready area t' b owner id ∧
      ∀ n, n ≠ name → t'.get? (fileAt b owner id n) = t.get? (fileAt b owner id n) := by
  -- nothing is in the area that is not laid out
  have hlayout : LayoutName name := by
    have hat : t.get? (b ++ (objectsNames owner id ++ [name]).map .text) =
        some (.file content) := by
      rw [← hfile]
      simp [fileAt, below]
    apply (ready.tidy.laid _ _ hat).named
    simp
  obtain ⟨t', hdelete, herase, htidy⟩ :=
    ready.tidy.delete (StagingArea.filePlace_object hlayout) hfile
  have hget : ∀ k, k ≠ fileAt b owner id name → t'.get? k = t.get? k := by
    intro k hk
    rw [herase, FileTree.get?_erase t (by simp)]
    exact if_neg hk
  refine ⟨t', ?_, ⟨htidy, ?_⟩, fun n hn => hget _ fun heq => hn (fileAt_inj.mp heq)⟩
  · rw [Layout.objectsDirectory_append_eq]
    exact hdelete
  · rw [hget _ fun heq => by simp [fileAt] at heq]
    exact ready.directory

/-- All files that belong to no current model can be removed. -/
theorem exists_prune (current : List String) {staged : List String}
    (hstaged : ∀ name ∈ staged, ∃ content, t.get? (fileAt b owner id name) = some (.file content))
    (hnodup : staged.Nodup) :
    ∃ t', outcome area.perform (prune (Layout.objectsDirectory owner id) current staged) t =
        (.ok (), t') ∧ Ready area t' b owner id := by
  -- on the files left to look at: no name is listed twice, so all of them are still there
  induction staged generalizing t with
  | nil => exact ⟨t, rfl, ready⟩
  | cons name rest ih =>
    obtain ⟨hfresh, hnodup⟩ := List.nodup_cons.mp hnodup
    rw [prune]
    by_cases hname : name ∈ current
    · rw [if_neg (by simpa using hname)]
      exact ih ready (fun n hn => hstaged n (List.mem_cons_of_mem _ hn)) hnodup
    · obtain ⟨content, hfile⟩ := hstaged name List.mem_cons_self
      obtain ⟨t₁, hdelete, ready₁, hothers⟩ := ready.exists_delete hfile
      obtain ⟨t', hrest, ready'⟩ := ih ready₁ (fun n hn => by
        rw [hothers n fun heq => hfresh (heq ▸ hn)]
        exact hstaged n (List.mem_cons_of_mem _ hn)) hnodup
      refine ⟨t', ?_, ready'⟩
      rw [if_pos (by simpa using hname), Script.outcome_bind, Script.outcome_lift, hdelete]
      exact hrest

/-- The archive can be written next to the directory of model files. -/
theorem exists_writeArchive {project : String} (hproject : project.length ≤ 30) (bytes : Bytes) :
    ∃ t', area.perform (.write (Layout.archiveFile owner id project) bytes) t = (.ok (), t') ∧
      area.Tidy t' b := by
  have hdir : t.get? (below b (projectNames owner id)) = some .directory := by
    apply ready.tidy.wellFormed.get?_of_append (List.cons_ne_nil (FileName.text "objects") [])
    rw [← ready.directory]
    simp [below, objectsNames]
  obtain ⟨t', hwrite, -, htidy⟩ :=
    ready.tidy.write (StagingArea.filePlace_archive hproject) hdir bytes
  rw [StagingArea.pathTo, ← Layout.archiveFile_eq] at hwrite
  exact ⟨t', hwrite, htidy⟩

theorem perform_list :
    area.perform (.list (Layout.objectsDirectory owner id)) t =
      (.ok (StagingArea.fileNames (t.entries (below b (objectsNames owner id)))), t) := by
  rw [Layout.objectsDirectory_eq]
  exact ready.tidy.list (fun _ => Layout.layoutName_of_mem_objectsNames) (List.cons_ne_nil _ _)
    (StagingArea.directoryPlace_objectsNames owner id) ready.directory

end Ready

/-- The directory of model files can be made in a tidy area. -/
theorem exists_makeDirectory (owner : UserId) (id : ProjectId) (tidy : area.Tidy t b) :
    ∃ t', area.perform (.makeDirectory (Layout.objectsDirectory owner id)) t = (.ok (), t') ∧
      Ready area t' b owner id := by
  obtain ⟨t', hmake, htidy, hdir⟩ :=
    tidy.makeDirectory (fun _ => Layout.layoutName_of_mem_objectsNames)
      (by simp [objectsNames, projectNames]) (StagingArea.directoryPlace_objectsNames owner id)
  rw [← Layout.objectsDirectory_eq] at hmake
  exact ⟨t', hmake, htidy, hdir⟩

/-- Files that can be read can be collected. -/
theorem outcome_collect (project : String)
    (hread : ∀ m ∈ models, area.perform (.read (stagedPath owner id m)) t =
      (.ok (Text.utf8 m.file.source), t)) :
    outcome area.perform (collect owner id project models) t =
      (.ok (models.map (entry project)), t) := by
  induction models with
  | nil => rfl
  | cons m rest ih =>
    have hrest := ih fun m' hm' => hread m' (List.mem_cons_of_mem _ hm')
    refine (Script.outcome_bind_eq_ok_iff _).mpr
      ⟨_, t, ask_eq_ok_iff.mpr (hread m List.mem_cons_self), ?_⟩
    exact (Script.outcome_bind_eq_ok_iff _).mpr ⟨_, t, hrest, rfl⟩

/-- The steps of a compile succeed in a tidy area if the names are short and the entries can be
packed. -/
theorem exists_compileWith (owner : UserId) (id : ProjectId) {pack : Archive.Packer}
    {g : Generation} {config : CompilerConfig}
    (tidy : area.Tidy t b) (hproject : g.project.name.length ≤ 30)
    (hnames : ∀ m ∈ g.models, LayoutName m.fileName)
    (hnodup : (g.models.map GeneratedModel.fileName).Nodup)
    (hpack : ∃ bytes,
      pack config.compression (g.models.map (entry g.project.name)) = .ok bytes) :
    ∃ a t', outcome area.perform (g.compileWith pack config owner id) t = (.ok a, t') ∧
      area.Tidy t' b := by
  obtain ⟨t₁, hmake, ready₁⟩ := exists_makeDirectory owner id tidy
  obtain ⟨t₂, hstage, ready₂⟩ := ready₁.exists_stage hnames
  obtain ⟨t₃, hprune, ready₃⟩ := ready₂.exists_prune (g.models.map GeneratedModel.fileName)
    (fun _ hname => (StagingArea.mem_fileNames_entries_iff ready₂.tidy.wellFormed).mp hname)
    (StagingArea.nodup_fileNames_entries ready₂.tidy.wellFormed)
  have staged := staged_of_stage_prune ready₁.site (fun m hm => (hnames m hm).isName) hnodup hstage
    ready₂.perform_list hprune
  have hcollect := outcome_collect g.project.name fun m hm => staged.perform_read hm
  obtain ⟨bytes, hbytes⟩ := hpack
  unfold compileWith
  dsimp only
  rw [Script.outcome_bind_of_eq_ok _ (ask_eq_ok_iff.mpr hmake),
    Script.outcome_bind_of_eq_ok _ hstage,
    Script.outcome_bind_of_eq_ok _ (ask_eq_ok_iff.mpr ready₂.perform_list),
    Script.outcome_bind_of_eq_ok _ hprune, Script.outcome_bind_of_eq_ok _ hcollect, hbytes]
  dsimp only
  by_cases hkeep : config.keepArchive
  · obtain ⟨t', hwrite, htidy⟩ := ready₃.exists_writeArchive hproject bytes
    rw [if_pos hkeep, Script.outcome_bind_of_eq_ok _ (ask_eq_ok_iff.mpr hwrite)]
    exact ⟨_, t', rfl, htidy⟩
  · rw [if_neg hkeep]
    exact ⟨_, t₃, rfl, ready₃.tidy⟩

end Generation

namespace Store

variable {s : Store} {owner : UserId} {id : ProjectId}

theorem Consistent.layoutName_nameOf (hs : s.Consistent) {o : Object} (ho : o ∈ s.objectsOf id) :
    LayoutName (ModelFile.nameOf o) :=
  Layout.layoutName_of_checkObjectName (hs.object_named o (mem_objectsOf_iff.mp ho).1)

/-- The entries of a project have different names, and short ones. -/
theorem Generates.exists_pack_eq_ok {models : List GeneratedModel} (h : s.Generates id models)
    (hs : s.Consistent) {project : String} (hproject : project.length ≤ 30)
    {pack : Archive.Packer} (hpack : Archive.Able pack) (compression : Archive.Compression) :
    ∃ bytes, pack compression (models.map (Generation.entry project)) = .ok bytes := by
  rw [h.entries_eq]
  apply hpack
  · rw [List.map_map]
    have hnames := hs.nodup_nameOf id
    rw [List.Nodup, List.pairwise_map] at hnames ⊢
    apply hnames.imp
    intro o o' hne heq
    apply hne
    have hassoc : ∀ name : String, project ++ "/api/models/" ++ name ++ ".js" =
        project ++ "/api/models/" ++ (name ++ ".js") := fun _ => String.append_assoc
    have hsame : project ++ "/api/models/" ++ o.name ++ ".js" =
        project ++ "/api/models/" ++ o'.name ++ ".js" := heq
    rw [hassoc, hassoc] at hsame
    exact (String.append_right_inj _).mp hsame
  · intro e he
    obtain ⟨o, ho, rfl⟩ := List.mem_map.mp he
    have hname := Naming.length_le_of_checkIdentifier
      (hs.object_named o (mem_objectsOf_iff.mp ho).1)
    have hbytes := length_utf8_le (project ++ "/api/models/" ++ o.name ++ ".js")
    have hdirectory : "/api/models/".length = 12 := rfl
    have hending : ".js".length = 3 := rfl
    simp only [String.length_append, Naming.identifierLimit] at hbytes hname
    dsimp only
    omega

/-- In a tidy area every project whose models can be generated can be compiled. -/
theorem Consistent.exists_compileOn (hs : s.Consistent) {config : CompilerConfig} {t : FileTree}
    {b : Location} (tidy : (StagingArea.mk config.stagingRoot).Tidy t b) {g : Generation}
    (hg : s.generate owner id = .ok g) :
    ∃ a t', s.compileOn config owner id t = (.ok a, t') ∧
      (StagingArea.mk config.stagingRoot).Tidy t' b := by
  obtain ⟨hproject, hmodels⟩ := hs.generate_eq_ok hg
  have hname : g.project.name.length ≤ 30 :=
    Naming.length_le_of_checkProjectName (hs.checkProjectName_of_getProject hproject)
  obtain ⟨a, t', hrun, htidy⟩ := Generation.exists_compileWith owner id tidy hname
    (fun m hm => hs.layoutName_nameOf (hmodels.object_mem hm)) (hmodels.nodup_fileNames hs)
    (hmodels.exists_pack_eq_ok hs hname Archive.able_pack config.compression)
  refine ⟨a, t', ?_, htidy⟩
  unfold compileOn compileOnWith compileWith
  rw [hg]
  exact hrun

end Store

end SchemaForge
