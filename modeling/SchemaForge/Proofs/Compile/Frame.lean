import SchemaForge.Proofs.Compile.Generation
import SchemaForge.Proofs.Compile.Staging
import SchemaForge.Proofs.Staging.Apart
import SchemaForge.Proofs.Staging.Frame
import SchemaForge.Proofs.Store.Invariant

/-!
# What a compile leaves alone

Whether a compile succeeds or fails, and wherever it fails, it changes no files but those in the
directory of model files and the archive. As the directories of two projects are apart, a compile
of one of them does not touch the other.
-/

namespace SchemaForge

open FileTree (RefiledAt AtMostFile)

namespace Generation

open Layout (objectsNames projectNames)
open Script (outcome)
open StagingArea (below)

variable {area : StagingArea} {t t' : FileTree} {b : Location} {owner : UserId} {id : ProjectId}
  {models : List GeneratedModel} {P Q : Location → Prop} {names : List String}

/-! ### Steps that keep to some files -/

/-- A request leaves the same tree behind whether its reply is taken or not. -/
theorem outcome_ask_snd {α : Type} (c : StagingCall (Except StagingError α)) :
    (outcome area.perform (ask c) t).2 = (area.perform c t).2 := by
  unfold ask
  rw [Script.outcome_bind, Script.outcome_lift]
  rcases area.perform c t with ⟨e | a, t₁⟩
  · rfl
  · rfl

/-- As long as a directory is there, the steps change nothing but files at some locations, whatever
comes of them. -/
def KeepsTo (area : StagingArea) (b : Location) (names : List String) (P : Location → Prop)
    {α : Type} (s : Steps α) : Prop :=
  ∀ t, area.Site t b names → RefiledAt P t (outcome area.perform s t).2

namespace KeepsTo

variable {α β : Type} {s : Steps α} {f : α → Steps β}

theorem imp (h : KeepsTo area b names P s) (hPQ : ∀ l, P l → Q l) : KeepsTo area b names Q s :=
  fun t site => (h t site).imp hPQ

/-- Steps that leave every tree as it is. -/
theorem of_unchanged (h : ∀ t, (outcome area.perform s t).2 = t) : KeepsTo area b names P s := by
  intro t site
  rw [h]
  exact .refl site.wellFormed

/-- The directory is still there after the first steps. -/
theorem bind (hs : KeepsTo area b names P s)
    (hf : ∀ a t t', area.Site t b names → outcome area.perform s t = (.ok a, t') →
      KeepsTo area b names P (f a)) : KeepsTo area b names P (s >>= f) := by
  intro t site
  have hfirst := hs t site
  rw [Script.outcome_bind]
  rcases hrun : outcome area.perform s t with ⟨e | a, t₁⟩
  · rw [hrun] at hfirst
    exact hfirst
  · rw [hrun] at hfirst
    exact hfirst.trans (hf a t t₁ site hrun t₁ (site.refiled hfirst.toRefiled))

/-- A request keeps to what it changes. -/
theorem ask {c : StagingCall (Except StagingError α)}
    (h : ∀ t, area.Site t b names → RefiledAt P t (area.perform c t).2) :
    KeepsTo area b names P (Generation.ask c) := by
  intro t site
  rw [outcome_ask_snd]
  exact h t site

end KeepsTo

/-! ### The loops -/

/-- The location of some file in the directory of model files. -/
def ModelPlace (b : Location) (owner : UserId) (id : ProjectId) (l : Location) : Prop :=
  ∃ name, IsName name ∧ l = fileAt b owner id name

theorem modelPlace_of_eq {name : String} (h : IsName name) (l : Location)
    (hl : l = below b (objectsNames owner id) ++ [.text name]) : ModelPlace b owner id l :=
  ⟨name, h, hl⟩

theorem keepsTo_stage (hnames : ∀ m ∈ models, IsName m.fileName) :
    KeepsTo area b (objectsNames owner id) (ModelPlace b owner id) (stage owner id models) := by
  induction models with
  | nil => exact .of_unchanged fun _ => rfl
  | cons m rest ih =>
    obtain ⟨hm, hrest⟩ := List.forall_mem_cons.mp hnames
    rw [stage, stagedPath, Layout.objectFile_eq hm]
    refine .bind (.ask fun t site => ?_) fun _ _ _ _ _ => ih hrest
    exact (site.refiledAt_write hm _).imp (modelPlace_of_eq hm)

theorem keepsTo_prune (current : List String) {staged : List String}
    (hstaged : ∀ name ∈ staged, IsName name) :
    KeepsTo area b (objectsNames owner id) (ModelPlace b owner id)
      (prune (Layout.objectsDirectory owner id) current staged) := by
  induction staged with
  | nil => exact .of_unchanged fun _ => rfl
  | cons name rest ih =>
    obtain ⟨hname, hrest⟩ := List.forall_mem_cons.mp hstaged
    rw [prune]
    by_cases hcurrent : name ∈ current
    · rw [if_neg (by simpa using hcurrent)]
      exact ih hrest
    · rw [if_pos (by simpa using hcurrent), Layout.objectsDirectory_append_eq]
      refine .bind (fun t site => ?_) fun r t t₁ _ _ => ?_
      · rw [Script.outcome_lift]
        dsimp only
        exact (site.refiledAt_delete hname).imp (modelPlace_of_eq hname)
      · -- a file that is gone is no reason to stop, any other refusal is
        rcases r with e | ⟨⟩
        · cases e
          case fileNotFound => exact ih hrest
          all_goals exact .of_unchanged fun _ => rfl
        · exact ih hrest

theorem keepsTo_collect (project : String) :
    KeepsTo area b names P (collect owner id project models) := by
  induction models with
  | nil => exact .of_unchanged fun _ => rfl
  | cons m rest ih =>
    rw [collect]
    refine .bind (.of_unchanged fun t => ?_) fun _ _ _ _ _ => .bind ih fun _ _ _ _ _ => ?_
    · rw [outcome_ask_snd, StagingArea.perform_read_snd]
    · exact .of_unchanged fun _ => rfl

/-! ### The steps of a compile -/

/-- The location of some file in the directory of model files, or of the archive. -/
def FilePlace (b : Location) (owner : UserId) (id : ProjectId) (project : String) (l : Location) :
    Prop :=
  ModelPlace b owner id l ∨
    l = below b (projectNames owner id) ++ [.text (Naming.fileName project ++ ".zip")]

/-- Names in a listing of the directory can be names of model files. -/
theorem isName_of_list_eq_ok {listed : List String} (site : area.Site t b (objectsNames owner id))
    (h : area.perform (.list (Layout.objectsDirectory owner id)) t = (.ok listed, t')) :
    ∀ name ∈ listed, IsName name := by
  intro name hname
  rw [Layout.objectsDirectory_eq, site.list_eq_ok_iff] at h
  obtain ⟨-, -, rfl⟩ := h
  obtain ⟨content, hfile⟩ := (StagingArea.mem_fileNames_entries_iff site.wellFormed).mp hname
  exact site.wellFormed.named _ _ hfile name
    (List.mem_append_right _ (List.mem_singleton_self _))

theorem keepsTo_write_archive (project : String) (bytes : Bytes) :
    KeepsTo area b (objectsNames owner id) (FilePlace b owner id project)
      (ask (.write (Layout.archiveFile owner id project) bytes)) := by
  rw [Layout.archiveFile_eq]
  refine .ask fun t site => ?_
  have hproject : area.Site t b (projectNames owner id) := site.outer
  exact (hproject.refiledAt_write (isName_archive project) bytes).imp fun _ hl => .inr hl

/-- A compile makes the directory of model files, or some directories on the way to it. Whatever
else it changes are files of the project. -/
theorem refiledAt_compileWith {pack : Archive.Packer} {g : Generation} {config : CompilerConfig}
    (ht : t.WellFormed) (hlinks : ∀ b, area.Settles t b → t.LinkFree b)
    (hnames : ∀ m ∈ g.models, IsName m.fileName) :
    let t₁ := (area.perform (.makeDirectory (Layout.objectsDirectory owner id)) t).2
    let t' := (outcome area.perform (g.compileWith pack config owner id) t).2
    t' = t₁ ∨ ∃ b, area.Site t₁ b (objectsNames owner id) ∧
      RefiledAt (FilePlace b owner id g.project.name) t₁ t' := by
  have hmade : (outcome area.perform
      (ask (.makeDirectory (Layout.objectsDirectory owner id))) t).2 = _ := outcome_ask_snd _
  dsimp only
  rw [compileWith, ← hmade, Script.outcome_bind]
  rcases hrun : outcome area.perform
    (ask (.makeDirectory (Layout.objectsDirectory owner id))) t with ⟨e | ⟨⟩, t₁⟩
  · exact .inl rfl
  rw [ask_eq_ok_iff, Layout.objectsDirectory_eq] at hrun
  obtain ⟨hext, b, hb, hsite⟩ := StagingArea.exists_site_of_makeDirectory ht
    (fun _ => Layout.isName_of_mem_objectsNames) (List.cons_ne_nil _ _) hrun
  have site := hsite (hlinks b ⟨t₁, hext, hb⟩)
  -- from here on the directory is there, whatever the steps before have answered
  refine .inr ⟨b, site, KeepsTo.bind ?_ ?_ t₁ site⟩
  · exact (keepsTo_stage hnames).imp fun _ => .inl
  intro _ _ _ _ _
  refine .bind (.of_unchanged fun t => ?_) fun listed t t' site hlist => ?_
  · rw [outcome_ask_snd, StagingArea.perform_list_snd]
  rw [ask_eq_ok_iff] at hlist
  refine .bind ((keepsTo_prune _ (isName_of_list_eq_ok site hlist)).imp fun _ => .inl) ?_
  intro _ _ _ _ _
  refine .bind (keepsTo_collect _) fun entries _ _ _ _ => ?_
  rcases pack config.compression entries with e | bytes
  · exact .of_unchanged fun _ => rfl
  dsimp only
  split
  · exact .bind (keepsTo_write_archive _ bytes) fun _ _ _ _ _ => .of_unchanged fun _ => rfl
  · exact .of_unchanged fun _ => rfl

end Generation

namespace Store

open Layout (Within StrictlyWithin projectNames objectsNames)
open Script (outcome)
open StagingArea (below)

variable {s : Store} {area : StagingArea} {owner owner' : UserId} {id id' : ProjectId}
  {t t' : FileTree} {b l : Location}

/-! ### What has changed after a compile -/

/-- What a compile of a project may do at a location. -/
inductive CompileChange (s : Store) (area : StagingArea) (owner : UserId) (id : ProjectId)
    (t t' : FileTree) (l : Location) : Prop
  /-- A directory is made: that of the model files, or one on the way to it. -/
  | directory {q : HostPath}
      (onWay : q ∈ (area.hostPath (Layout.objectsDirectory owner id)).ancestors)
      (missing : t.get? l = none) (made : t'.find .node q = .ok (.taken l .directory))
  /-- A file comes or goes in the directory of model files. -/
  | model {b : Location} {name : String} (based : area.Based t' b) (named : IsName name)
      (location : l = below b (Text.segments (Layout.objectFile owner id name)))
      (old : t.AtMostFile l) (new : t'.AtMostFile l)
  /-- The archive is written, under the name that the project has now. -/
  | archive {b : Location} {p : Project} (based : area.Based t' b)
      (project : s.getProject owner id = .ok p)
      (location : l = below b (Text.segments (Layout.archiveFile owner id p.name)))
      (old : t.AtMostFile l) (new : t'.AtMostFile l)

/-- A tree after a compile of a project, whatever the outcome. -/
structure Compiled (s : Store) (area : StagingArea) (owner : UserId) (id : ProjectId)
    (t t' : FileTree) : Prop where
  wellFormed : t'.WellFormed
  kept : t.Kept t'
  linkFree : ∀ b, t.LinkFree b → t'.LinkFree b
  change : ∀ l, t'.get? l ≠ t.get? l → CompileChange s area owner id t t' l

theorem compiled_of_refiledAt {t₁ : FileTree} {p : Project}
    (hmade : (area.perform (.makeDirectory (Layout.objectsDirectory owner id)) t).2 = t₁)
    (ht : t.WellFormed) (hp : s.getProject owner id = .ok p)
    (h : t' = t₁ ∨ ∃ b, area.Site t₁ b (objectsNames owner id) ∧
      RefiledAt (Generation.FilePlace b owner id p.name) t₁ t') :
    Compiled s area owner id t t' := by
  obtain ⟨hext, hnew⟩ := StagingArea.made_of_makeDirectory ht _ hmade
  have hmissing : ∀ l, t₁.get? l ≠ t.get? l → t.get? l = none :=
    fun l hl => ((hext.new l).resolve_left hl).1
  rcases h with rfl | ⟨b, site, hfiles⟩
  · refine ⟨hext.wellFormed, hext.kept, fun _ => hext.linkFree, fun l hl => ?_⟩
    obtain ⟨q, hq, hfind⟩ := hnew l hl
    exact .directory hq (hmissing l hl) hfind
  · have hkept := hfiles.kept
    refine ⟨hfiles.wellFormed, hext.kept.trans hkept,
      fun _ hfree => hfiles.linkFree (hext.linkFree hfree), fun l hl => ?_⟩
    -- what the files have not changed is as it was when the directory had been made
    by_cases hsame : t'.get? l = t₁.get? l
    · rw [hsame] at hl
      obtain ⟨q, hq, hfind⟩ := hnew l hl
      exact .directory hq (hmissing l hl) (FileTree.find_kept hfind hkept)
    · obtain ⟨hold, hnow⟩ := hfiles.changed l hsame
      have hbefore : t.AtMostFile l := fun n hn => hold n (hext.get? hn)
      have based := site.based.kept hkept
      rcases hfiles.only l hsame with ⟨name, hname, hl⟩ | hl
      · refine .model based hname ?_ hbefore hnow
        rw [hl, Layout.segments_objectFile hname, StagingArea.below_concat]
        rfl
      · refine .archive based hp ?_ hbefore hnow
        rw [hl, Layout.segments_archiveFile, StagingArea.below_concat]

theorem Consistent.compiled (hs : s.Consistent) {pack : Archive.Packer} {config : CompilerConfig}
    {r : Except CompileError CompiledArchive} (ht : t.WellFormed)
    (hlinks : ∀ b, (StagingArea.mk config.stagingRoot).Settles t b → t.LinkFree b)
    (h : s.compileOnWith pack config owner id t = (r, t')) :
    Compiled s ⟨config.stagingRoot⟩ owner id t t' := by
  unfold compileOnWith compileWith at h
  rcases hg : s.generate owner id with e | g
  · rw [hg] at h
    obtain ⟨-, rfl⟩ := Prod.mk.inj h
    exact ⟨ht, .refl t, fun _ hfree => hfree, fun _ hl => absurd rfl hl⟩
  · rw [hg] at h
    obtain ⟨hproject, hmodels⟩ := hs.generate_eq_ok hg
    have hrun : (outcome (StagingArea.mk config.stagingRoot).perform
        (g.compileWith pack config owner id) t).2 = t' := congrArg Prod.snd h
    apply compiled_of_refiledAt rfl ht hproject
    rw [← hrun]
    exact Generation.refiledAt_compileWith ht hlinks (hmodels.isName_fileName hs)

namespace Compiled

variable (h : Compiled s area owner id t t')

include h

/-- No file but those in the directory of the project has changed. -/
theorem within_of_file {content : Bytes} (hl : t'.get? l ≠ t.get? l)
    (hfile : t.get? l = some (.file content) ∨ t'.get? l = some (.file content)) :
    ∃ b, area.Based t' b ∧ below b (Text.segments (Layout.projectDirectory owner id)) <+: l := by
  rcases h.change l hl with ⟨-, hmissing, hmade⟩ | ⟨based, hname, rfl, -, -⟩ | ⟨based, -, rfl, -, -⟩
  · -- where a directory is made there was nothing before, and there is no file now
    have hdirectory : t'.get? l = some .directory := FileTree.holds_of_find h.wellFormed hmade
    rcases hfile with hfile | hfile
    · rw [hmissing] at hfile
      cases hfile
    · rw [hdirectory] at hfile
      cases hfile
  · exact ⟨_, based, StagingArea.below_prefix_below.mpr (Layout.strictlyWithin_objectFile hname).1⟩
  · exact ⟨_, based, StagingArea.below_prefix_below.mpr Layout.strictlyWithin_archiveFile.1⟩

/-- Nothing has changed in the directory of another project. -/
theorem get?_of_other (ht : t.WellFormed) (hother : (owner', id') ≠ (owner, id))
    (based : area.Based t b) (hfree : t.LinkFree b)
    (hl : below b (Text.segments (Layout.projectDirectory owner' id')) <+: l) :
    t'.get? l = t.get? l := by
  by_contra hchanged
  rw [Layout.segments_projectDirectory] at hl
  have hafter : area.Based t' b := based.kept h.kept
  rcases h.change l hchanged with
    ⟨honWay, hmissing, hmade⟩ | ⟨based', hname, rfl, -, -⟩ | ⟨based', -, rfl, -, -⟩
  · rw [Layout.objectsDirectory_eq] at honWay
    obtain ⟨ys, hys, rfl⟩ := based.eq_below_of_new ht h.kept (h.linkFree b hfree)
      (fun _ => Layout.isName_of_mem_objectsNames) honWay hmade hmissing
    exact hother (Layout.numbers_eq_of_prefix_names
      ((StagingArea.below_prefix_below.mp hl).trans hys))
  · rw [based'.unique hafter, StagingArea.below_prefix_below, Layout.segments_objectFile hname,
      objectsNames, List.append_assoc] at hl
    exact hother (Layout.numbers_eq_of_prefix_names hl)
  · rw [based'.unique hafter, StagingArea.below_prefix_below, Layout.segments_archiveFile] at hl
    exact hother (Layout.numbers_eq_of_prefix_names hl)

end Compiled

/-- The directories of two projects are not in each other, and every path of the layout is that of
its project and may be asked for where there are no links. So a compile, whatever comes of it, keeps
to the directory of its project: besides directories that were missing, it changes nothing but model
files and the archive. -/
theorem projects_are_staged_apart :
    (∀ owner id owner' id', (owner, id) ≠ (owner', id') →
      ¬Within (Layout.projectDirectory owner id) (Layout.projectDirectory owner' id')) ∧
    (∀ owner id object project, Naming.checkObjectName object = .ok () →
      StrictlyWithin (Layout.projectDirectory owner id)
        (Layout.objectFile owner id (object ++ ".js")) ∧
      StrictlyWithin (Layout.projectDirectory owner id) (Layout.archiveFile owner id project) ∧
      (∀ owner' id',
        ¬Within (Layout.objectsDirectory owner' id') (Layout.archiveFile owner id project)) ∧
      ∀ (area : StagingArea) (t : FileTree), t.WellFormed →
        (∀ b, area.Settles t b → t.LinkFree b) →
        ∀ path ∈ [Layout.projectDirectory owner id, Layout.objectsDirectory owner id,
            Layout.objectFile owner id (object ++ ".js"), Layout.archiveFile owner id project],
          outcome FileTree.perform (area.resolve path) t = (.ok (area.hostPath path), t)) ∧
    ∀ (pack : Archive.Packer) (s : Store) (config : CompilerConfig) (owner : UserId)
      (id : ProjectId) (t t' : FileTree) (r : Except CompileError CompiledArchive),
      s.Reachable → t.WellFormed →
      (∀ b, (StagingArea.mk config.stagingRoot).Settles t b → t.LinkFree b) →
      s.compileOnWith pack config owner id t = (r, t') →
      (∀ l, t'.get? l ≠ t.get? l → CompileChange s ⟨config.stagingRoot⟩ owner id t t' l) ∧
      (∀ l content, t'.get? l ≠ t.get? l →
        t.get? l = some (.file content) ∨ t'.get? l = some (.file content) →
        ∃ b, (StagingArea.mk config.stagingRoot).Based t' b ∧
          below b (Text.segments (Layout.projectDirectory owner id)) <+: l) ∧
      ∀ owner' id' b l, (owner', id') ≠ (owner, id) →
        (StagingArea.mk config.stagingRoot).Based t b →
        below b (Text.segments (Layout.projectDirectory owner' id')) <+: l →
        t'.get? l = t.get? l := by
  refine ⟨fun _ _ _ _ => Layout.not_within_projectDirectory, ?_, ?_⟩
  · intro owner id object project hobject
    have hfile : IsName (object ++ ".js") := Layout.isName_of_checkObjectName hobject
    refine ⟨Layout.strictlyWithin_objectFile hfile, Layout.strictlyWithin_archiveFile,
      fun _ _ => Layout.not_within_archiveFile, ?_⟩
    intro area t ht hlinks path hpath
    obtain ⟨names, hnames, hlong, rfl⟩ := Layout.exists_names hfile hpath
    exact StagingArea.outcome_resolve_intercalate ht hlinks hnames hlong
  · intro pack s config owner id t t' r hs ht hlinks h
    have hcompiled := hs.consistent.compiled ht hlinks h
    refine ⟨hcompiled.change, fun l content hl => hcompiled.within_of_file hl, ?_⟩
    intro owner' id' b l hother based hl
    exact hcompiled.get?_of_other ht hother based (hlinks b ⟨t, .refl ht, based⟩) hl

set_option maxRecDepth 100000 in
/-- A compile that cannot pack the models has staged them by then, but not touched a model file of
the same name in the directory of another user. -/
theorem failed_compile_keeps_to_project :
    ∃ (s : Store) (config : CompilerConfig) (t t' : FileTree) (e : CompileError)
      (own other : Location),
      s.Reachable ∧
      own = below [.text "out"] ["7", "projects", "3", "objects", "Item.js"] ∧
      other = below [.text "out"] ["8", "projects", "3", "objects", "Item.js"] ∧
      t.get? own = some (.file []) ∧ t.get? other = some (.file []) ∧
      s.compileOnWith (fun _ _ => .error .nameTooLong) config 7 3 t = (.error e, t') ∧
      t'.get? own ≠ some (.file []) ∧ t'.get? other = some (.file []) := by
  let s : Store := ⟨⟨[⟨3, "Shop", 7, 1, .epoch⟩], List.pairwise_singleton ..⟩,
    ⟨[⟨1, "Item", 3, 7, .epoch⟩], List.pairwise_singleton ..⟩,
    ⟨[⟨2, 1, 7, "price", 3, true, none⟩], List.pairwise_singleton ..⟩, .empty⟩
  let config : CompilerConfig := ⟨⟨"/out"⟩, .stored, true⟩
  let staged (owner : String) : List (Location × Node) :=
    [([.text "out", .text owner], .directory),
      ([.text "out", .text owner, .text "projects"], .directory),
      ([.text "out", .text owner, .text "projects", .text "3"], .directory),
      ([.text "out", .text owner, .text "projects", .text "3", .text "objects"], .directory),
      ([.text "out", .text owner, .text "projects", .text "3", .text "objects", .text "Item.js"],
        .file [])]
  let t : FileTree := ⟨([.text "out"], .directory) :: (staged "7" ++ staged "8"), []⟩
  let own : Location := below [.text "out"] ["7", "projects", "3", "objects", "Item.js"]
  let other : Location := below [.text "out"] ["8", "projects", "3", "objects", "Item.js"]
  have hload : ofSnapshot s.snapshot = .ok s := by with_unfolding_all rfl
  have ht : t.WellFormed := by decide +kernel
  have hlinks : ∀ b, (StagingArea.mk config.stagingRoot).Settles t b → t.LinkFree b :=
    fun b _ => FileTree.linkFree_of_nodes (by simp [t, staged])
  have hbased : (StagingArea.mk config.stagingRoot).Based t [.text "out"] :=
    (if_neg (by decide)).mpr (by decide +kernel)
  have hfails : (s.compileOnWith (fun _ _ => .error .nameTooLong) config 7 3 t).1.toOption =
      none := by
    decide +kernel
  have hown : (s.compileOnWith (fun _ _ => .error .nameTooLong) config 7 3 t).2.get? own ≠
      some (.file []) := by
    decide +kernel
  rcases hrun : s.compileOnWith (fun _ _ => .error .nameTooLong) config 7 3 t with ⟨e | a, t'⟩
  · rw [hrun] at hown
    obtain ⟨-, -, hothers⟩ := projects_are_staged_apart.2.2 (fun _ _ => .error .nameTooLong) s
      config 7 3 t t' _ (.loaded hload) ht hlinks hrun
    have hkept : t'.get? other = t.get? other :=
      hothers 8 3 [.text "out"] other (by decide) hbased (by decide +kernel)
    exact ⟨s, config, t, t', e, own, other, .loaded hload, rfl, rfl, rfl, rfl, hrun, hown, hkept⟩
  · rw [hrun] at hfails
    cases hfails

end Store

end SchemaForge
