import SchemaForge.Proofs.Compile.Staging
import SchemaForge.Proofs.Staging.Unobstructed
import SchemaForge.Staging.Locks

/-!
# Compiles that others interfere with

Between two requests of a compile, others may change the area: they put nothing in its way, and leave
the directory of the project alone. The compile succeeds nevertheless, its archive is that of its own
models, and it gives others the same guarantee.
-/

namespace SchemaForge

open Layout (objectsNames projectNames StagedFile)

namespace StagingArea

variable {area : StagingArea} {b : Location} {key key' : LockKey} {t t' t₁ : FileTree}

/-! ### Others -/

/-- Nothing is in the way of compiles, and nothing has changed in the directory of a project. -/
structure Untouched (area : StagingArea) (b : Location) (key : LockKey) (t t' : FileTree) :
    Prop where
  unobstructed : area.Unobstructed t' b
  same : ∀ l, below b (projectNames key.owner key.project) <+: l → t'.get? l = t.get? l

/-- The projects of other keys are left alone. -/
structure Respects (area : StagingArea) (b : Location) (key : LockKey) (t t' : FileTree) :
    Prop where
  unobstructed : area.Unobstructed t' b
  others : ∀ key', key' ≠ key → area.Untouched b key' t t'

theorem Untouched.refl (h : area.Unobstructed t b) : area.Untouched b key t t :=
  ⟨h, fun _ _ => rfl⟩

theorem Untouched.trans (h : area.Untouched b key t t₁) (h' : area.Untouched b key t₁ t') :
    area.Untouched b key t t' :=
  ⟨h'.unobstructed, fun l hl => (h'.same l hl).trans (h.same l hl)⟩

theorem Respects.refl (h : area.Unobstructed t b) : area.Respects b key t t :=
  ⟨h, fun _ _ => .refl h⟩

/-- The directories of projects are apart: whatever is on the way to something in one of them is
not in another. -/
theorem respects_of_changed (h : area.Unobstructed t' b)
    (hchanged : ∀ l, t'.get? l ≠ t.get? l →
      ∃ rest, l <+: below b (projectNames key.owner key.project ++ rest)) :
    area.Respects b key t t' := by
  refine ⟨h, fun key' hkey => ⟨h, fun l hl => ?_⟩⟩
  by_contra hne
  -- both directories would be on the way to one place, and their numbers are in their names
  obtain ⟨rest, hrest⟩ := hchanged l hne
  have hnumbers := Layout.numbers_eq_of_prefix_names (below_prefix_below.mp (hl.trans hrest))
  obtain ⟨howner, hproject⟩ := Prod.mk.inj hnumbers
  apply hkey
  cases key
  cases key'
  cases howner
  cases hproject
  rfl

/-- So it is where one location has changed. -/
theorem respects_of_changed_at (h : area.Unobstructed t' b) (rest : List String)
    (hsame : ∀ l, l ≠ below b (projectNames key.owner key.project ++ rest) → t'.get? l = t.get? l) :
    area.Respects b key t t' := by
  refine respects_of_changed h fun l hl => ⟨rest, ?_⟩
  by_cases heq : l = below b (projectNames key.owner key.project ++ rest)
  · exact heq ▸ List.prefix_refl _
  · exact absurd (hsame l heq) hl

/-! ### Scripts that others interfere with -/

variable {α β : Type} {P Q : α → FileTree → Prop} {R : β → FileTree → Prop}

/-- Whatever others do before each call, the call leaves their projects alone; and `Q` holds of the
result, and of the tree then. -/
def Safe (area : StagingArea) (b : Location) (key : LockKey) (Q : α → FileTree → Prop) :
    Script StagingCall α → FileTree → Prop
  | .done a, t => Q a t
  | .call c next, t => ∀ t', area.Untouched b key t t' →
      area.Respects b key t' (area.perform c t').2 ∧
        area.Safe b key Q (next (area.perform c t').1) (area.perform c t').2

namespace Safe

variable {s : Script StagingCall α}

theorem imp (h : area.Safe b key P s t) (hPQ : ∀ a t, P a t → Q a t) : area.Safe b key Q s t := by
  induction s generalizing t with
  | done a => exact hPQ a t h
  | call c next ih => exact fun t' ht' => ⟨(h t' ht').1, ih _ (h t' ht').2⟩

theorem bind {f : α → Script StagingCall β}
    (h : area.Safe b key (fun a t => area.Safe b key R (f a) t) s t) :
    area.Safe b key R (s.bind f) t := by
  induction s generalizing t with
  | done a => exact h
  | call c next ih => exact fun t' ht' => ⟨(h t' ht').1, ih _ (h t' ht').2⟩

/-- A script that is safe stays so when others have done something. -/
theorem untouched (h : area.Safe b key Q s t) (ht' : area.Untouched b key t t')
    (hQ : ∀ a, Q a t → Q a t') : area.Safe b key Q s t' := by
  cases s with
  | done a => exact hQ a h
  | call c next => exact fun t₁ ht₁ => h t₁ (ht'.trans ht₁)

/-- So it is if there are no others. -/
theorem run (h : area.Safe b key Q s t) (ht : area.Unobstructed t b) :
    Q (s.run area.perform t).1 (s.run area.perform t).2 := by
  induction s generalizing t with
  | done a => exact h
  | call c next ih =>
    obtain ⟨hrespects, hnext⟩ := h t (.refl ht)
    exact ih _ hnext hrespects.unobstructed

end Safe

/-- A script that can fail is safe and does not fail. -/
def Succeeds (area : StagingArea) (b : Location) (key : LockKey) (Q : α → FileTree → Prop)
    (s : Generation.Steps α) (t : FileTree) : Prop :=
  area.Safe b key (fun r t => ∃ a, r = .ok a ∧ Q a t) s.run t

namespace Succeeds

theorem pure {a : α} (h : Q a t) : area.Succeeds b key Q (Pure.pure a) t := ⟨a, rfl, h⟩

theorem bind {s : Generation.Steps α} {f : α → Generation.Steps β}
    (h : area.Succeeds b key Q s t) (hf : ∀ a t, Q a t → area.Succeeds b key R (f a) t) :
    area.Succeeds b key R (s >>= f) t := by
  show area.Safe b key _ (Script.bind s.run _) t
  apply Safe.bind
  apply Safe.imp h
  rintro r t ⟨a, rfl, ha⟩
  exact hf a t ha

/-- A call whose reply is dealt with. -/
theorem lift {c : StagingCall α}
    (h : ∀ t', area.Untouched b key t t' → ∃ a t₁, area.perform c t' = (a, t₁) ∧
      area.Respects b key t' t₁ ∧ Q a t₁) :
    area.Succeeds b key Q (monadLift (Script.ask c)) t := by
  intro t' ht'
  obtain ⟨a, t₁, hrun, hrespects, ha⟩ := h t' ht'
  rw [hrun]
  exact ⟨hrespects, a, rfl, ha⟩

theorem ask {c : StagingCall (Except StagingError α)}
    (h : ∀ t', area.Untouched b key t t' → ∃ a t₁, area.perform c t' = (.ok a, t₁) ∧
      area.Respects b key t' t₁ ∧ Q a t₁) :
    area.Succeeds b key Q (Generation.ask c) t := by
  unfold Generation.ask
  refine bind (lift (Q := fun r t => ∃ a, r = .ok a ∧ Q a t) fun t' ht' => ?_) ?_
  · obtain ⟨a, t₁, hrun, hrespects, ha⟩ := h t' ht'
    exact ⟨_, t₁, hrun, hrespects, a, rfl, ha⟩
  · rintro r t ⟨a, rfl, ha⟩
    exact pure ha

end Succeeds

end StagingArea

namespace Generation

open StagingArea (below respects_of_changed respects_of_changed_at)

variable {area : StagingArea} {b : Location} {key : LockKey} {t t' : FileTree}
  {models earlier : List GeneratedModel} {listed current : List String} {m : GeneratedModel}
  {name : String}

/-! ### What a compile relies on -/

/-- The directory of model files is there, some models are in their files, and files that have been
listed are there. -/
structure Standing (area : StagingArea) (b : Location) (key : LockKey) (t : FileTree)
    (models : List GeneratedModel) (listed : List String) : Prop where
  unobstructed : area.Unobstructed t b
  directory : t.get? (below b (objectsNames key.owner key.project)) = some .directory
  model : ∀ m ∈ models, t.get? (fileAt b key.owner key.project m.fileName) =
    some (.file (Text.utf8 m.file.source))
  present : ∀ name ∈ listed, ∃ content,
    t.get? (fileAt b key.owner key.project name) = some (.file content)

theorem stagedPath_eq (hm : Naming.checkObjectName m.object.name = .ok ()) :
    stagedPath key.owner key.project m =
      StagingArea.pathTo (objectsNames key.owner key.project) m.fileName :=
  Layout.objectFile_eq (Layout.isName_of_checkObjectName hm)

theorem fileAt_eq_below : fileAt b key.owner key.project name =
    below b (projectNames key.owner key.project ++ ["objects", name]) := by
  rw [fileAt, ← StagingArea.below_concat, objectsNames, List.append_assoc]
  rfl

theorem below_projectNames_objectsNames :
    below b (projectNames key.owner key.project) <+: below b (objectsNames key.owner key.project) :=
  StagingArea.below_prefix_below.mpr (List.prefix_append _ _)

theorem below_projectNames_fileAt :
    below b (projectNames key.owner key.project) <+: fileAt b key.owner key.project name :=
  below_projectNames_objectsNames.trans (List.prefix_append _ _)

namespace Standing

/-- Others do not change it. -/
theorem untouched (h : Standing area b key t models listed) (ht' : area.Untouched b key t t') :
    Standing area b key t' models listed where
  unobstructed := ht'.unobstructed
  directory := by
    rw [ht'.same _ below_projectNames_objectsNames]
    exact h.directory
  model m hm := by
    rw [ht'.same _ below_projectNames_fileAt]
    exact h.model m hm
  present name hname := by
    rw [ht'.same _ below_projectNames_fileAt]
    exact h.present name hname

theorem makeDirectory (key : LockKey) (h : area.Unobstructed t b) :
    ∃ t', area.perform (.makeDirectory (Layout.objectsDirectory key.owner key.project)) t =
        (.ok (), t') ∧
      area.Respects b key t t' ∧ Standing area b key t' [] [] := by
  obtain ⟨t', hrun, hopen, hdir, hnew⟩ := h.makeDirectory key.owner key.project
  refine ⟨t', hrun, respects_of_changed hopen fun l hl => ⟨["objects"], ?_⟩,
    ⟨hopen, hdir, fun _ hm => absurd hm List.not_mem_nil,
      fun _ hname => absurd hname List.not_mem_nil⟩⟩
  rw [← objectsNames]
  exact hnew l hl

/-- One more model is written to its file, which is that of no other. -/
theorem write (h : Standing area b key t models [])
    (hm : Naming.checkObjectName m.object.name = .ok ())
    (hother : ∀ m' ∈ models, m'.fileName ≠ m.fileName) :
    ∃ t', area.perform (.write (stagedPath key.owner key.project m) (Text.utf8 m.file.source)) t =
        (.ok (), t') ∧
      area.Respects b key t t' ∧ Standing area b key t' (models ++ [m]) [] := by
  have hplace : StagedFile (objectsNames key.owner key.project) m.fileName := .model _ _ hm
  obtain ⟨hrun, hopen⟩ := h.unobstructed.write hplace h.directory (Text.utf8 m.file.source)
  rw [← stagedPath_eq hm, ← fileAt] at hrun
  rw [← fileAt] at hopen
  have hget := FileTree.get?_put t (l := fileAt b key.owner key.project m.fileName)
    (by simp [fileAt]) (.file (Text.utf8 m.file.source))
  refine ⟨_, hrun, respects_of_changed_at hopen ["objects", m.fileName] fun l hl => ?_, hopen, ?_,
    fun m' hm' => ?_, fun _ hn => absurd hn List.not_mem_nil⟩
  · rw [← fileAt_eq_below] at hl
    rw [hget, if_neg hl]
  · rw [hget, if_neg (by simp [fileAt])]
    exact h.directory
  · rw [hget]
    rcases List.mem_append.mp hm' with hm' | hm'
    · rw [if_neg fun heq => hother m' hm' (fileAt_inj.mp heq)]
      exact h.model m' hm'
    · rw [List.mem_singleton.mp hm', if_pos rfl]

/-- A file that was listed is removed; models and the others that were listed have other files. -/
theorem delete (h : Standing area b key t models (name :: listed)) (hfresh : name ∉ listed)
    (hother : ∀ m ∈ models, m.fileName ≠ name) :
    ∃ t', area.perform
        (.delete (Layout.objectsDirectory key.owner key.project ++ "/" ++ name)) t = (.ok (), t') ∧
      area.Respects b key t t' ∧ Standing area b key t' models listed := by
  obtain ⟨content, hfile⟩ := h.present name List.mem_cons_self
  obtain ⟨hrun, hopen⟩ := h.unobstructed.delete hfile
  rw [StagingArea.pathTo, ← Layout.objectsDirectory_append_eq, ← fileAt] at hrun
  rw [← fileAt] at hopen
  have hget := FileTree.get?_erase t (l := fileAt b key.owner key.project name) (by simp [fileAt])
  refine ⟨_, hrun, respects_of_changed_at hopen ["objects", name] fun l hl => ?_, hopen, ?_,
    fun m hm => ?_, fun n hn => ?_⟩
  · rw [← fileAt_eq_below] at hl
    rw [hget, if_neg hl]
  · rw [hget, if_neg (by simp [fileAt])]
    exact h.directory
  · rw [hget, if_neg fun heq => hother m hm (fileAt_inj.mp heq)]
    exact h.model m hm
  · have hne : n ≠ name := fun heq => hfresh (heq ▸ hn)
    rw [hget, if_neg fun heq => hne (fileAt_inj.mp heq)]
    exact h.present n (List.mem_cons_of_mem _ hn)

theorem list (h : Standing area b key t models []) :
    ∃ listed, area.perform (.list (Layout.objectsDirectory key.owner key.project)) t =
        (.ok listed, t) ∧
      listed.Nodup ∧ Standing area b key t models listed := by
  refine ⟨_, h.unobstructed.list h.directory,
    StagingArea.nodup_fileNames_entries h.unobstructed.wellFormed, ?_⟩
  exact { h with
    present := fun _ hname =>
      (StagingArea.mem_fileNames_entries_iff h.unobstructed.wellFormed).mp hname }

theorem read (h : Standing area b key t models listed) (hmem : m ∈ models)
    (hm : Naming.checkObjectName m.object.name = .ok ()) :
    area.perform (.read (stagedPath key.owner key.project m)) t =
      (.ok (Text.utf8 m.file.source), t) := by
  rw [stagedPath_eq hm]
  exact h.unobstructed.read (.model _ _ hm) (h.model m hmem)

theorem writeArchive (h : Standing area b key t models listed) {project : String}
    (hproject : Naming.checkProjectName project = .ok ()) (bytes : Bytes) :
    ∃ t', area.perform (.write (Layout.archiveFile key.owner key.project project) bytes) t =
        (.ok (), t') ∧
      area.Respects b key t t' := by
  have hdir : t.get? (below b (projectNames key.owner key.project)) = some .directory := by
    apply h.unobstructed.wellFormed.get?_of_append (List.cons_ne_nil (FileName.text "objects") [])
    rw [← StagingArea.below_concat]
    exact h.directory
  obtain ⟨hrun, hopen⟩ := h.unobstructed.write (.archive _ _ hproject) hdir bytes
  rw [StagingArea.pathTo, ← Layout.archiveFile_eq] at hrun
  refine ⟨_, hrun,
    respects_of_changed_at hopen [Naming.fileName project ++ ".zip"] fun l hl => ?_⟩
  rw [StagingArea.below_concat] at hl
  rw [FileTree.get?_put t (by simp), if_neg hl]

end Standing

/-! ### The loops -/

theorem succeeds_stage (hnames : ∀ m ∈ models, Naming.checkObjectName m.object.name = .ok ())
    (hnodup : ((earlier ++ models).map GeneratedModel.fileName).Nodup)
    (h : Standing area b key t earlier []) :
    area.Succeeds b key (fun _ t' => Standing area b key t' (earlier ++ models) [])
      (stage key.owner key.project models) t := by
  induction models generalizing earlier t with
  | nil => exact .pure (by rwa [List.append_nil])
  | cons m rest ih =>
    obtain ⟨hm, hrest⟩ := List.forall_mem_cons.mp hnames
    have hsplit : earlier ++ m :: rest = earlier ++ [m] ++ rest := List.append_cons ..
    rw [hsplit] at hnodup ⊢
    -- what is written does not replace a model that was written earlier
    have hother : ∀ m' ∈ earlier, m'.fileName ≠ m.fileName := by
      rw [List.map_append, List.map_append] at hnodup
      have hfirst := (List.nodup_append.mp hnodup).1
      intro m' hm' heq
      exact (List.nodup_append.mp hfirst).2.2 _ (List.mem_map_of_mem hm') _
        (List.mem_singleton_self _) heq
    refine .bind (.ask (fun t' ht' => ?_)) fun _ t₁ h₁ => ih hrest hnodup h₁
    obtain ⟨t₁, hrun, hrespects, h₁⟩ := (h.untouched ht').write hm hother
    exact ⟨(), t₁, hrun, hrespects, h₁⟩

theorem succeeds_prune (hcurrent : ∀ m ∈ models, m.fileName ∈ current) (hnodup : listed.Nodup)
    (h : Standing area b key t models listed) :
    area.Succeeds b key (fun _ t' => Standing area b key t' models [])
      (prune (Layout.objectsDirectory key.owner key.project) current listed) t := by
  -- a file that is left to be looked at has not been removed, as no name is listed twice
  induction listed generalizing t with
  | nil => exact .pure h
  | cons name rest ih =>
    obtain ⟨hfresh, hnodup⟩ := List.nodup_cons.mp hnodup
    rw [prune]
    by_cases hname : name ∈ current
    · rw [if_neg (by simpa using hname)]
      exact ih hnodup { h with present := fun n hn => h.present n (List.mem_cons_of_mem _ hn) }
    · rw [if_pos (by simpa using hname)]
      refine .bind (Q := fun r t' => r = .ok () ∧ Standing area b key t' models rest)
        (.lift fun t' ht' => ?_) ?_
      · obtain ⟨t₁, hrun, hrespects, h₁⟩ := (h.untouched ht').delete hfresh
          fun m hm heq => hname (heq ▸ hcurrent m hm)
        exact ⟨_, t₁, hrun, hrespects, rfl, h₁⟩
      · rintro r t₁ ⟨rfl, h₁⟩
        exact ih hnodup h₁

theorem succeeds_collect {all : List GeneratedModel} (project : String)
    (hall : ∀ m ∈ models, m ∈ all)
    (hnames : ∀ m ∈ models, Naming.checkObjectName m.object.name = .ok ())
    (h : Standing area b key t all []) :
    area.Succeeds b key
      (fun entries t' => entries = models.map (entry project) ∧ Standing area b key t' all [])
      (collect key.owner key.project project models) t := by
  induction models generalizing t with
  | nil => exact .pure ⟨rfl, h⟩
  | cons m rest ih =>
    obtain ⟨hm, hnames⟩ := List.forall_mem_cons.mp hnames
    obtain ⟨hmem, hall⟩ := List.forall_mem_cons.mp hall
    refine .bind (Q := fun content t' => content = Text.utf8 m.file.source ∧
      Standing area b key t' all []) (.ask fun t' ht' => ?_) ?_
    · have h' := h.untouched ht'
      exact ⟨_, t', h'.read hmem hm, .refl h'.unobstructed, rfl, h'⟩
    · rintro content t₁ ⟨rfl, h₁⟩
      refine .bind (ih hall hnames h₁) ?_
      rintro entries t₂ ⟨rfl, h₂⟩
      exact .pure ⟨rfl, h₂⟩

/-! ### The steps of a compile -/

/-- The archive of generated models, packed. -/
def archive (g : Generation) (bytes : Bytes) : CompiledArchive :=
  ⟨g.project.name ++ ".zip", bytes, g.models.map fun m => entryName g.project.name m.file.path⟩

/-- The archive of a compile is that of its own models, whatever others do. -/
theorem succeeds_compileWith {pack : Archive.Packer} {g : Generation} {config : CompilerConfig}
    {bytes : Bytes} (hproject : Naming.checkProjectName g.project.name = .ok ())
    (hnames : ∀ m ∈ g.models, Naming.checkObjectName m.object.name = .ok ())
    (hnodup : (g.models.map GeneratedModel.fileName).Nodup)
    (hpack : pack config.compression (g.models.map (entry g.project.name)) = .ok bytes)
    (t : FileTree) :
    area.Succeeds b key (fun a _ => a = g.archive bytes)
      (g.compileWith pack config key.owner key.project) t := by
  -- `Standing` is what others cannot undo: by it each step finds what the steps before it left
  refine .bind (.ask fun t' ht' => ?_) fun _ t₁ (h₁ : Standing area b key t₁ [] []) => ?_
  · obtain ⟨t₁, hrun, hrespects, h₁⟩ := Standing.makeDirectory key ht'.unobstructed
    exact ⟨(), t₁, hrun, hrespects, h₁⟩
  refine .bind (succeeds_stage hnames (by rwa [List.nil_append]) h₁) fun _ t₂ h₂ => ?_
  rw [List.nil_append] at h₂
  refine .bind (Q := fun listed t' => listed.Nodup ∧ Standing area b key t' g.models listed)
    (.ask fun t' ht' => ?_) ?_
  · have h₂' := h₂.untouched ht'
    obtain ⟨listed, hrun, hlisted, h₃⟩ := h₂'.list
    exact ⟨listed, t', hrun, .refl h₂'.unobstructed, hlisted, h₃⟩
  rintro listed t₃ ⟨hlisted, h₃⟩
  refine .bind (succeeds_prune (fun m hm => List.mem_map_of_mem hm) hlisted h₃) fun _ t₄ h₄ => ?_
  refine .bind (succeeds_collect g.project.name (fun _ hm => hm) hnames h₄) ?_
  rintro entries t₅ ⟨rfl, h₅⟩
  rw [hpack]
  dsimp only
  have hmembers : g.archive bytes = ⟨g.project.name ++ ".zip", bytes,
      (g.models.map (entry g.project.name)).map Archive.Entry.name⟩ := by
    rw [List.map_map]
    rfl
  split
  · refine .bind (Q := fun _ _ => True) (.ask fun t' ht' => ?_) fun _ _ _ => .pure hmembers.symm
    obtain ⟨t₆, hrun, hrespects⟩ := (h₅.untouched ht').writeArchive hproject bytes
    exact ⟨(), t₆, hrun, hrespects, trivial⟩
  · exact .pure hmembers.symm

end Generation

end SchemaForge
