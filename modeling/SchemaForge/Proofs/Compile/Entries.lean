import SchemaForge.Proofs.Compile.Run
import SchemaForge.Proofs.Compile.Success

/-!
# Names in archives

The names of projects and objects go into the names of entries as they are, with nothing escaped. What
the rules for names forbid is enough: every entry lies three directories below the place where the
archive is extracted, and no two entries fall together where case is ignored.
-/

namespace SchemaForge

/-! ### Names of entries -/

namespace Generation

open Script (outcome)

section

variable {σ : Type} {perform : {β : Type} → StagingCall β → σ → β × σ} {st st' : σ}
  {owner : UserId} {id : ProjectId}

theorem names_of_collect {project : String} {models : List GeneratedModel}
    {entries : List Archive.Entry}
    (h : outcome perform (collect owner id project models) st = (.ok entries, st')) :
    entries.map Archive.Entry.name = models.map fun m => entryName project m.file.path := by
  induction models generalizing entries st with
  | nil =>
    obtain rfl := Except.ok.inj (Prod.mk.inj h).1
    rfl
  | cons m rest ih =>
    obtain ⟨content, st₁, -, h⟩ := (Script.outcome_bind_eq_ok_iff _).mp h
    obtain ⟨entries', st₂, hrest, h⟩ := (Script.outcome_bind_eq_ok_iff _).mp h
    obtain ⟨hentries, rfl⟩ := Prod.mk.inj h
    obtain rfl := Except.ok.inj hentries
    rw [List.map_cons, List.map_cons, ih hrest]

/-- Whatever is replied to the steps of a compile: If it succeeds, the archive has the name of the
project, and its entries have those of the models. -/
theorem archive_of_compileWith {pack : Archive.Packer} {g : Generation} {config : CompilerConfig}
    {a : CompiledArchive}
    (h : outcome perform (g.compileWith pack config owner id) st = (.ok a, st')) :
    a.fileName = g.project.name ++ ".zip" ∧
      ∃ entries, pack config.compression entries = .ok a.bytes ∧
        entries.map Archive.Entry.name = a.members ∧
        a.members = g.models.map fun m => entryName g.project.name m.file.path := by
  obtain ⟨⟨⟩, st₁, -, h⟩ := (Script.outcome_bind_eq_ok_iff _).mp h
  obtain ⟨⟨⟩, st₂, -, h⟩ := (Script.outcome_bind_eq_ok_iff _).mp h
  obtain ⟨listed, st₃, -, h⟩ := (Script.outcome_bind_eq_ok_iff _).mp h
  obtain ⟨⟨⟩, st₄, -, h⟩ := (Script.outcome_bind_eq_ok_iff _).mp h
  obtain ⟨entries, st₅, hcollect, h⟩ := (Script.outcome_bind_eq_ok_iff _).mp h
  have hnames := names_of_collect hcollect
  rcases hpack : pack config.compression entries with e | bytes
  · rw [hpack] at h
    cases h
  rw [hpack] at h
  dsimp only at h
  by_cases hkeep : config.keepArchive
  · rw [if_pos hkeep] at h
    obtain ⟨⟨⟩, st₆, -, h⟩ := (Script.outcome_bind_eq_ok_iff _).mp h
    obtain rfl := Except.ok.inj (Prod.mk.inj h).1
    exact ⟨rfl, entries, hpack, rfl, hnames⟩
  · rw [if_neg hkeep] at h
    obtain rfl := Except.ok.inj (Prod.mk.inj h).1
    exact ⟨rfl, entries, hpack, rfl, hnames⟩

theorem names_of_compileWith {pack : Archive.Packer} {g : Generation} {config : CompilerConfig}
    {a : CompiledArchive}
    (h : outcome perform (g.compileWith pack config owner id) st = (.ok a, st')) :
    ∃ entries, pack config.compression entries = .ok a.bytes ∧
      entries.map Archive.Entry.name = a.members ∧
      a.members = g.models.map fun m => entryName g.project.name m.file.path :=
  (archive_of_compileWith h).2

end

end Generation

/-! ### Safe names -/

/-- Does a name lead to a place below the one it is looked up from, by these steps, whatever the system
takes for a separator? -/
structure Archive.SafeName (name : String) (steps : List String) : Prop where
  pieces_eq : Text.pieces '/' name.toList = steps.map String.toList
  step : ∀ n ∈ steps, n ≠ "" ∧ n ≠ "." ∧ n ≠ ".."
  relative : name.toList.head? ≠ some '/'
  char : ∀ c ∈ name.toList, c ≠ '\\' ∧ Text.isControl c = false

namespace Naming

variable {project object object' : String}

/-- May the character stand in a step of a path? -/
def MayStand (c : Char) : Prop := c ≠ '/' ∧ c ≠ '\\' ∧ Text.isControl c = false

instance (c : Char) : Decidable (MayStand c) := inferInstanceAs (Decidable (_ ∧ _))

theorem mayStand_of_checkObjectName (hobject : checkObjectName object = .ok ()) :
    ∀ c ∈ object.toList, MayStand c := by
  intro c hc
  have hin := inIdentifier_of_checkIdentifier hobject hc
  refine ⟨?_, ?_, isControl_of_inIdentifier hin⟩
  · rintro rfl
    exact absurd hin (by decide)
  · rintro rfl
    exact absurd hin (by decide)

/-- No rule for projects says that names must not be a period or two; they must not start with one. -/
theorem step_of_checkProjectName (hproject : checkProjectName project = .ok ()) :
    project ≠ "" ∧ project ≠ "." ∧ project ≠ ".." := by
  obtain ⟨hblank, -, hperiod, -⟩ := checkProjectName_eq_ok_iff.mp hproject
  refine ⟨?_, ?_, ?_⟩
  · rintro rfl
    exact hblank rfl
  · rintro rfl
    exact hperiod rfl
  · rintro rfl
    exact hperiod rfl

theorem step_of_checkObjectName (object : String) :
    object ++ ".js" ≠ "" ∧ object ++ ".js" ≠ "." ∧ object ++ ".js" ≠ ".." := by
  -- the last character of the one is that of the ending, and that of the others is not
  have hlast : (object ++ ".js").toList.getLast? = some 's' := by
    rw [String.toList_append, List.getLast?_append]
    rfl
  refine ⟨fun h => ?_, fun h => ?_, fun h => ?_⟩
  all_goals
    rw [h] at hlast
    exact absurd hlast (by decide)

/-- Between the slashes of an entry's name there are the project, two directories and the file. -/
theorem pieces_entryName (hproject : '/' ∉ project.toList) (hobject : '/' ∉ object.toList) :
    Text.pieces '/' (project ++ "/api/models/" ++ object ++ ".js").toList =
      [project, "api", "models", object ++ ".js"].map String.toList := by
  have hchars : (project ++ "/api/models/" ++ object ++ ".js").toList =
      project.toList ++ (["api".toList, "models".toList, (object ++ ".js").toList]).flatMap
        ('/' :: ·) := by
    simp
  have hfile : '/' ∉ (object ++ ".js").toList := by
    rw [String.toList_append]
    intro hslash
    rcases List.mem_append.mp hslash with hslash | hslash
    · exact hobject hslash
    · exact absurd hslash (by decide)
  rw [hchars, Text.pieces_append_flatMap hproject]
  · rfl
  · simp only [List.forall_mem_cons]
    exact ⟨by decide, by decide, hfile, fun _ h => absurd h List.not_mem_nil⟩

theorem safeName_entryName (hproject : checkProjectName project = .ok ())
    (hobject : checkObjectName object = .ok ()) :
    Archive.SafeName (project ++ "/api/models/" ++ object ++ ".js")
      [project, "api", "models", object ++ ".js"] := by
  obtain ⟨-, -, -, hproject'⟩ := checkProjectName_eq_ok_iff.mp hproject
  have hobject' := mayStand_of_checkObjectName hobject
  refine ⟨?_, ?_, ?_, ?_⟩
  · exact pieces_entryName (fun hslash => (hproject' _ hslash).1 rfl)
      fun hslash => (hobject' _ hslash).1 rfl
  · simp only [List.forall_mem_cons]
    exact ⟨step_of_checkProjectName hproject, by decide, by decide, step_of_checkObjectName object,
      fun _ h => absurd h List.not_mem_nil⟩
  · obtain ⟨c, cs, hc⟩ := List.exists_cons_of_ne_nil
      (fun hnil => (step_of_checkProjectName hproject).1 (String.toList_eq_nil_iff.mp hnil))
    rw [String.toList_append, String.toList_append, String.toList_append, hc]
    intro hslash
    exact (hproject' c (hc ▸ List.mem_cons_self)).1 (Option.some.inj hslash)
  · have hmiddle : ∀ c ∈ "/api/models/".toList, c ≠ '\\' ∧ Text.isControl c = false :=
      Text.forall_mem_of_all (by decide)
    have hend : ∀ c ∈ ".js".toList, MayStand c := Text.forall_mem_of_all (by decide)
    intro c hc
    simp only [String.toList_append, List.mem_append] at hc
    rcases hc with ((hc | hc) | hc) | hc
    · exact (hproject' c hc).2
    · exact hmiddle c hc
    · exact (hobject' c hc).2
    · exact (hend c hc).2

/-- Names of entries that fall together where case is ignored are those of objects whose names do. -/
theorem sameIgnoringCase_entryName :
    Text.sameIgnoringCase (project ++ "/api/models/" ++ object ++ ".js")
      (project ++ "/api/models/" ++ object' ++ ".js") = Text.sameIgnoringCase object object' := by
  rw [Bool.eq_iff_iff]
  simp only [Text.sameIgnoringCase, beq_iff_eq, String.toList_append, List.map_append,
    List.append_cancel_right_eq, List.append_cancel_left_eq]

end Naming

namespace Store

/-- Where an archive is extracted, each of its entries comes to lie in the directory of the models of
the project, whatever the file system takes for a separator, and no two come to lie in one file, also
where case does not matter. This is so whatever was replied to the steps of the compile. -/
theorem entries_are_safe_to_extract {pack : Archive.Packer} {s : Store} {config : CompilerConfig}
    {owner : UserId} {id : ProjectId} {a : CompiledArchive} {σ : Type}
    {perform : {β : Type} → StagingCall β → σ → β × σ} {st st' : σ} (hs : s.Reachable)
    (h : (s.compileWith pack config owner id).run perform st = (.ok a, st')) :
    ∃ (p : Project) (entries : List Archive.Entry), s.getProject owner id = .ok p ∧
      pack config.compression entries = .ok a.bytes ∧
      entries.map Archive.Entry.name = a.members ∧
      a.members = (s.objectsOf id).map (fun o => p.name ++ "/api/models/" ++ o.name ++ ".js") ∧
      (∀ o ∈ s.objectsOf id, Archive.SafeName (p.name ++ "/api/models/" ++ o.name ++ ".js")
        [p.name, "api", "models", o.name ++ ".js"]) ∧
      a.members.Pairwise fun name name' => Text.sameIgnoringCase name name' = false := by
  have hconsistent := hs.consistent
  unfold compileWith at h
  rcases hg : s.generate owner id with e | g
  · rw [hg] at h
    cases h
  rw [hg] at h
  obtain ⟨hproject, hmodels⟩ := hconsistent.generate_eq_ok hg
  obtain ⟨entries, hpack, hentries, hnames⟩ := Generation.names_of_compileWith h
  have hmembers : a.members = (s.objectsOf id).map fun o =>
      g.project.name ++ "/api/models/" ++ o.name ++ ".js" := by
    rw [hnames, ← hmodels.objects, List.map_map]
    apply List.map_congr_left
    intro m hm
    rw [(hmodels.files m hm).path_eq, Generation.entryName_pathOf]
    rfl
  have hnamed := hconsistent.checkProjectName_of_getProject hproject
  refine ⟨g.project, entries, hproject, hpack, hentries, hmembers, ?_, ?_⟩
  · intro o ho
    exact Naming.safeName_entryName hnamed
      (hconsistent.object_named o (mem_objectsOf_iff.mp ho).1)
  · rw [hmembers, List.pairwise_map]
    apply (s.ascending_objectsOf id).imp_of_mem
    intro o o' ho ho' hlt
    rw [Naming.sameIgnoringCase_entryName, Bool.eq_false_iff]
    intro hsame
    obtain ⟨ho, hid⟩ := mem_objectsOf_iff.mp ho
    obtain ⟨ho', hid'⟩ := mem_objectsOf_iff.mp ho'
    -- names that are the same but for case are those of one object
    obtain rfl := hconsistent.object_unique o ho o' ho' ⟨hid.trans hid'.symm, hsame⟩
    exact UInt64.lt_irrefl _ hlt

/-- A project name with periods, a blank and a letter that is not in ASCII, and three objects with
hardly a name, compiled where nothing is staged yet. -/
theorem entries_of_odd_names_are_safe :
    ∃ (s : Store) (config : CompilerConfig) (t t' : FileTree) (a : CompiledArchive), s.Reachable ∧
      s.compileOn config 7 3 t = (.ok a, t') ∧
      a.members = ["é: ../api/models/$.js", "é: ../api/models/_.js", "é: ../api/models/Con.js"] ∧
      Archive.SafeName "é: ../api/models/$.js" ["é: ..", "api", "models", "$.js"] ∧
      a.members.Pairwise fun name name' => Text.sameIgnoringCase name name' = false := by
  let s : Store := ⟨⟨[⟨3, "é: ..", 7, 1, .epoch⟩], by decide⟩,
    ⟨[⟨1, "$", 3, 7, .epoch⟩, ⟨2, "_", 3, 7, .epoch⟩, ⟨5, "Con", 3, 7, .epoch⟩], by decide⟩,
    .empty, .empty⟩
  let config : CompilerConfig := ⟨⟨"/out"⟩, .stored, true⟩
  let t : FileTree := ⟨[([.text "out"], .directory)], []⟩
  have hs : s.Reachable := reachable_of_isOk (by decide +kernel)
  have hbased : (StagingArea.mk config.stagingRoot).Based t [.text "out"] :=
    (if_neg (by decide)).mpr (by decide +kernel)
  have hproject : s.getProject 7 3 = .ok ⟨3, "é: ..", 7, .sailsJs, .epoch⟩ := rfl
  have hempty : ∀ rest n, t.get? ([.text "out"] ++ rest) = some n → rest = [] := by
    intro rest n hn
    simp [t, FileTree.get?, FileTree.lookup_cons_ite] at hn
    exact hn.1
  have htidy : (StagingArea.mk config.stagingRoot).Tidy t [.text "out"] :=
    StagingArea.tidy_of_empty (by decide +kernel) hbased (by decide +kernel) hempty
  obtain ⟨g, hg⟩ : ∃ g, s.generate 7 3 = .ok g := by
    rcases hg : s.generate 7 3 with e | g
    · have hok : (s.generate 7 3).isOk = true := by decide +kernel
      rw [hg] at hok
      cases hok
    · exact ⟨g, rfl⟩
  obtain ⟨a, t', hrun, -⟩ := hs.consistent.exists_compileOn htidy hg
  obtain ⟨p, entries, hp, -, -, hmembers, hsafe, hdistinct⟩ := entries_are_safe_to_extract hs hrun
  obtain rfl := Except.ok.inj (hp.symm.trans hproject)
  have hdollar : ⟨1, "$", 3, 7, .epoch⟩ ∈ s.objectsOf 3 := List.mem_cons_self
  exact ⟨s, config, t, t', a, hs, hrun, hmembers, hsafe _ hdollar, hdistinct⟩

end Store

end SchemaForge
