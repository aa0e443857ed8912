import SchemaForge.Proofs.Archive.RoundTrip
import SchemaForge.Proofs.Compile.Generation
import SchemaForge.Proofs.Compile.Staging
import SchemaForge.Proofs.Store.Invariant

/-!
# What a compile results in

A compile that succeeds leaves the current models in the directory of model files and nothing else,
and packs them in the order of their objects. Old files of the project do not matter, nor does
anything else in the tree, as long as there are no links where files are staged.
-/

namespace SchemaForge

namespace Generation

open Layout (objectsNames projectNames)
open Script (outcome)

variable {area : StagingArea} {t t' : FileTree} {owner : UserId} {id : ProjectId}

theorem entryName_pathOf (project : String) (o : Object) :
    entryName project (ModelFile.pathOf o) = project ++ "/api/models/" ++ o.name ++ ".js" := by
  have hpath : ModelFile.pathOf o = "api/models/" ++ (o.name ++ ".js") := rfl
  have hslash : "/api/models/" = "/" ++ "api/models/" := rfl
  simp only [entryName, hpath, hslash, String.append_assoc]

theorem of_compileWith_eq_ok {pack : Archive.Packer} {g : Generation} {config : CompilerConfig}
    {a : CompiledArchive} (ht : t.WellFormed) (hlinks : ∀ b, area.Settles t b → t.LinkFree b)
    (hnames : ∀ m ∈ g.models, IsName m.fileName)
    (hnodup : (g.models.map GeneratedModel.fileName).Nodup)
    (h : outcome area.perform (g.compileWith pack config owner id) t = (.ok a, t')) :
    a.fileName = g.project.name ++ ".zip" ∧
      a.members = (g.models.map (entry g.project.name)).map Archive.Entry.name ∧
      pack config.compression (g.models.map (entry g.project.name)) = .ok a.bytes ∧
      (∃ b, Staged area t' b owner id g.models) ∧
      (config.keepArchive →
        area.perform (.read (Layout.archiveFile owner id g.project.name)) t' =
          (.ok a.bytes, t')) := by
  obtain ⟨⟨⟩, t₁, hmake, h⟩ := (Script.outcome_bind_eq_ok_iff _).mp h
  obtain ⟨⟨⟩, t₂, hstage, h⟩ := (Script.outcome_bind_eq_ok_iff _).mp h
  obtain ⟨listed, t₃, hlist, h⟩ := (Script.outcome_bind_eq_ok_iff _).mp h
  obtain ⟨⟨⟩, t₄, hprune, h⟩ := (Script.outcome_bind_eq_ok_iff _).mp h
  obtain ⟨entries, t₅, hcollect, h⟩ := (Script.outcome_bind_eq_ok_iff _).mp h
  -- the first request settles where the area is
  rw [ask_eq_ok_iff, Layout.objectsDirectory_eq] at hmake
  obtain ⟨hext, b, hb, hsite⟩ := StagingArea.exists_site_of_makeDirectory ht
    (fun _ => Layout.isName_of_mem_objectsNames) (List.cons_ne_nil _ _) hmake
  have site := hsite (hlinks b ⟨t₁, hext, hb⟩)
  rw [ask_eq_ok_iff] at hlist
  have staged := staged_of_stage_prune site hnames hnodup hstage hlist hprune
  obtain ⟨rfl, rfl⟩ := of_collect_eq_ok staged.site hnames staged.file hcollect
  rcases hpack : pack config.compression (g.models.map (entry g.project.name)) with e | bytes
  · rw [hpack] at h
    cases h
  rw [hpack] at h
  dsimp only at h
  by_cases hkeep : config.keepArchive
  · rw [if_pos hkeep] at h
    obtain ⟨⟨⟩, t₆, hwrite, h⟩ := (Script.outcome_bind_eq_ok_iff _).mp h
    obtain ⟨ha, rfl⟩ := Prod.mk.inj h
    obtain rfl := Except.ok.inj ha
    obtain ⟨staged', hread⟩ := staged.of_write_archive (ask_eq_ok_iff.mp hwrite)
    exact ⟨rfl, rfl, rfl, ⟨b, staged'⟩, fun _ => hread⟩
  · rw [if_neg hkeep] at h
    obtain ⟨ha, rfl⟩ := Prod.mk.inj h
    obtain rfl := Except.ok.inj ha
    exact ⟨rfl, rfl, rfl, ⟨b, staged⟩, fun hc => absurd hc hkeep⟩

end Generation

namespace Store

/-- The models as entries of the archive of the project. -/
theorem Generates.entries_eq {s : Store} {id : ProjectId} {models : List GeneratedModel}
    (h : s.Generates id models) (project : String) :
    models.map (Generation.entry project) = (s.objectsOf id).map fun o =>
      ⟨project ++ "/api/models/" ++ o.name ++ ".js", Text.utf8 (s.sourceOf o)⟩ := by
  rw [← h.objects, List.map_map]
  apply List.map_congr_left
  intro m hm
  show Generation.entry project m = _
  rw [Generation.entry, (h.files m hm).path_eq, (h.files m hm).source_eq,
    Generation.entryName_pathOf]
  rfl

/-- A compile that succeeds answers with an archive of the models of all objects of the project, in
the order of their numbers, under the names that they have in the generated project. Afterwards the
directory of model files has exactly these models, and the archive is kept if it is to be. The reader
of the archive has to suit the packer for these models only. -/
theorem compile_packs_and_stages_current_models {pack : Archive.Packer}
    {unpack? : Bytes → Option (List Archive.Entry)} {s : Store} {config : CompilerConfig}
    {owner : UserId} {id : ProjectId} {t t' : FileTree} {a : CompiledArchive}
    (hpack : ∀ g, s.generate owner id = .ok g → Archive.Faithful pack unpack? config.compression
      (g.models.map (Generation.entry g.project.name)))
    (hs : s.Reachable) (ht : t.WellFormed)
    (hlinks : ∀ b, (StagingArea.mk config.stagingRoot).Settles t b → t.LinkFree b)
    (h : s.compileOnWith pack config owner id t = (.ok a, t')) :
    ∃ (p : Project) (source : Object → String),
      s.getProject owner id = .ok p ∧
      (s.objectsOf id).Pairwise (fun o o' => o.id < o'.id) ∧
      (∀ o ∈ s.objectsOf id, ∃ attributes, s.attributesOf o.id = .ok attributes ∧
        attributes.Pairwise (fun x x' => x.id < x'.id) ∧
        source o = (ModelFile.ofObject o attributes).source) ∧
      a.fileName = p.name ++ ".zip" ∧
      a.members = (s.objectsOf id).map (fun o => p.name ++ "/api/models/" ++ o.name ++ ".js") ∧
      unpack? a.bytes = some ((s.objectsOf id).map fun o =>
        ⟨p.name ++ "/api/models/" ++ o.name ++ ".js", Text.utf8 (source o)⟩) ∧
      (StagingArea.mk config.stagingRoot).perform (.list (Layout.objectsDirectory owner id)) t' =
        (.ok (((s.objectsOf id).map fun o => o.name ++ ".js").mergeSort
          fun x y => decide (x ≤ y)), t') ∧
      (∀ o ∈ s.objectsOf id,
        (StagingArea.mk config.stagingRoot).perform
            (.read (Layout.objectFile owner id (o.name ++ ".js"))) t' =
          (.ok (Text.utf8 (source o)), t')) ∧
      (config.keepArchive →
        (StagingArea.mk config.stagingRoot).perform (.read (Layout.archiveFile owner id p.name)) t' =
          (.ok a.bytes, t')) := by
  have hconsistent := hs.consistent
  unfold compileOnWith compileWith at h
  rcases hg : s.generate owner id with e | g
  · rw [hg] at h
    cases h
  rw [hg] at h
  obtain ⟨hproject, hmodels⟩ := hconsistent.generate_eq_ok hg
  obtain ⟨hname, hmembers, hbytes, ⟨b, staged⟩, hkept⟩ :=
    Generation.of_compileWith_eq_ok ht hlinks (hmodels.isName_fileName hconsistent)
      (hmodels.nodup_fileNames hconsistent) h
  have hentries := hmodels.entries_eq g.project.name
  refine ⟨g.project, s.sourceOf, hproject, s.ascending_objectsOf id, ?_, hname, ?_, ?_, ?_, ?_,
    hkept⟩
  · intro o ho
    obtain ⟨m, hm, rfl⟩ := hmodels.exists_model ho
    obtain ⟨attributes, hattributes, -⟩ := hmodels.files m hm
    refine ⟨attributes, hattributes, ascending_attributesOf hattributes, ?_⟩
    rw [sourceOf, hattributes]
  · rw [hmembers, hentries, List.map_map]
    rfl
  · rw [← hentries]
    exact hpack g hg _ hbytes
  · rw [staged.perform_list, hmodels.fileNames_eq]
    rfl
  · intro o ho
    obtain ⟨m, hm, rfl⟩ := hmodels.exists_model ho
    rw [← (hmodels.files m hm).source_eq]
    exact staged.perform_read hm

set_option maxRecDepth 100000 in
/-- An old model is staged, and the compile puts the current one in its place. -/
theorem compile_replaces_staged_model :
    ∃ (s : Store) (config : CompilerConfig) (t t' : FileTree) (a : CompiledArchive)
      (content : Bytes),
      content = Text.utf8 (ModelFile.ofObject ⟨1, "Item", 3, 7, .epoch⟩
        [⟨2, 1, "price", .decimal, true, none⟩]).source ∧
      s.Reachable ∧ s.objectsOf 3 = [⟨1, "Item", 3, 7, .epoch⟩] ∧
      (StagingArea.mk config.stagingRoot).perform (.read "7/projects/3/objects/Item.js") t =
        (.ok [], t) ∧
      s.compileOn config 7 3 t = (.ok a, t') ∧
      a.members = ["Shop/api/models/Item.js"] ∧
      Archive.entries? a.bytes = some [⟨"Shop/api/models/Item.js", content⟩] ∧
      (StagingArea.mk config.stagingRoot).perform (.read "7/projects/3/objects/Item.js") t' =
        (.ok content, t') := by
  let s : Store := ⟨⟨[⟨3, "Shop", 7, 1, .epoch⟩], List.pairwise_singleton ..⟩,
    ⟨[⟨1, "Item", 3, 7, .epoch⟩], List.pairwise_singleton ..⟩,
    ⟨[⟨2, 1, 7, "price", 3, true, none⟩], List.pairwise_singleton ..⟩, .empty⟩
  let config : CompilerConfig := ⟨⟨"/out"⟩, .stored, true⟩
  let t : FileTree := ⟨[([.text "out"], .directory), ([.text "out", .text "7"], .directory),
    ([.text "out", .text "7", .text "projects"], .directory),
    ([.text "out", .text "7", .text "projects", .text "3"], .directory),
    ([.text "out", .text "7", .text "projects", .text "3", .text "objects"], .directory),
    ([.text "out", .text "7", .text "projects", .text "3", .text "objects", .text "Item.js"],
      .file [])], []⟩
  let item : Object := ⟨1, "Item", 3, 7, .epoch⟩
  let content : Bytes :=
    Text.utf8 (ModelFile.ofObject item [⟨2, 1, "price", .decimal, true, none⟩]).source
  have hload : ofSnapshot s.snapshot = .ok s := by with_unfolding_all rfl
  let g : Generation := ⟨⟨3, "Shop", 7, .sailsJs, .epoch⟩,
    [⟨item, ModelFile.ofObject item [⟨2, 1, "price", .decimal, true, none⟩]⟩]⟩
  have hg : s.generate 7 3 = .ok g := rfl
  have hpack : ∀ g, s.generate 7 3 = .ok g → Archive.Faithful Archive.pack Archive.entries? .stored
      (g.models.map (Generation.entry g.project.name)) := by
    intro g' hg'
    obtain rfl := Except.ok.inj (hg.symm.trans hg')
    exact Archive.Modest.faithful ⟨by decide, by decide +kernel, by decide +kernel⟩
  have ht : t.WellFormed := by decide +kernel
  have hlinks : ∀ b, (StagingArea.mk config.stagingRoot).Settles t b → t.LinkFree b :=
    fun b _ => FileTree.linkFree_of_nodes (by simp [t])
  have hok : (s.compileOn config 7 3 t).1.toOption.isSome := by decide +kernel
  rcases hrun : s.compileOn config 7 3 t with ⟨e | a, t'⟩
  · rw [hrun] at hok
    cases hok
  obtain ⟨p, source, hp, -, hsource, -, hmembers, hentries, -, hread, -⟩ :=
    compile_packs_and_stages_current_models hpack (.loaded hload) ht hlinks hrun
  have hobjects : s.objectsOf 3 = [item] := rfl
  have hproject : s.getProject 7 3 = .ok ⟨3, "Shop", 7, .sailsJs, .epoch⟩ := rfl
  have hattributes : s.attributesOf 1 = .ok [⟨2, 1, "price", .decimal, true, none⟩] := rfl
  obtain rfl := Except.ok.inj (hp.symm.trans hproject)
  have hitem : item ∈ s.objectsOf 3 := hobjects ▸ List.mem_singleton_self item
  have hcontent : Text.utf8 (source item) = content := by
    obtain ⟨attributes, hattributes', -, hsource⟩ := hsource item hitem
    obtain rfl := Except.ok.inj (hattributes'.symm.trans hattributes)
    rw [hsource]
  have hfile : Layout.objectFile 7 3 (item.name ++ ".js") = "7/projects/3/objects/Item.js" := by
    decide +kernel
  have hread := hread item hitem
  rw [hobjects] at hmembers hentries
  rw [List.map_singleton, hcontent] at hentries
  rw [hfile, hcontent] at hread
  refine ⟨s, config, t, t', a, content, rfl, .loaded hload, hobjects, ?_, hrun, hmembers, hentries,
    hread⟩
  exact Prod.ext (by decide +kernel) (by decide +kernel)

end Store

end SchemaForge
