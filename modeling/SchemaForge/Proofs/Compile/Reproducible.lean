import SchemaForge.Proofs.Compile.Run
import SchemaForge.Proofs.Model.File

/-!
# What archives depend on

An archive is made of the name of the project, of the names of its objects and of the names, types
and required flags of their attributes, all in the order of the numbers. Nothing else gets into it:
neither the numbers themselves, nor owners, times, descriptions and actions, nor other projects, nor
the files that were there before. So projects that are alike give the same archive, even in different
stores and on different trees.
-/

namespace SchemaForge.Store

/-! ### What is alike -/

/-- Objects of two stores that are not told apart in their model files: they have one name, and
their attributes, in the order of the numbers, are alike. -/
structure Alike (s s' : Store) (o o' : Object) : Prop where
  name : o.name = o'.name
  attributes : ∃ attributes attributes', s.attributesOf o.id = .ok attributes ∧
    s'.attributesOf o'.id = .ok attributes' ∧ List.Forall₂ Attribute.Alike attributes attributes'

variable {s s' : Store} {id id' : ProjectId}

theorem Alike.sourceOf_eq {o o' : Object} (h : Alike s s' o o') : s.sourceOf o = s'.sourceOf o' := by
  obtain ⟨attributes, attributes', hattributes, hattributes', halike⟩ := h.attributes
  rw [sourceOf, sourceOf, hattributes, hattributes']
  exact congrArg ModelFile.source (ModelFile.ofObject_eq h.name halike)

/-! ### What is packed -/

/-- The entries of the archive of a project of this name. -/
def entriesOf (s : Store) (id : ProjectId) (project : String) : List Archive.Entry :=
  (s.objectsOf id).map fun o =>
    ⟨project ++ "/api/models/" ++ o.name ++ ".js", Text.utf8 (s.sourceOf o)⟩

theorem entriesOf_eq (h : List.Forall₂ (Alike s s') (s.objectsOf id) (s'.objectsOf id'))
    (project : String) : s.entriesOf id project = s'.entriesOf id' project := by
  apply map_eq_of_forall₂ h
  intro o o' ho
  rw [ho.name, ho.sourceOf_eq]

/-- A compile that succeeds answers with the archive of the entries of the project. Files enter only
in so far as there are no links. -/
theorem Consistent.archive_of_compile (h : s.Consistent) {pack : Archive.Packer}
    {config : CompilerConfig} {owner : UserId} {t t' : FileTree} {p : Project} {a : CompiledArchive}
    (ht : t.WellFormed)
    (hlinks : ∀ b, (StagingArea.mk config.stagingRoot).Settles t b → t.LinkFree b)
    (hp : s.getProject owner id = .ok p)
    (hok : s.compileOnWith pack config owner id t = (.ok a, t')) :
    a.fileName = p.name ++ ".zip" ∧
      a.members = (s.entriesOf id p.name).map Archive.Entry.name ∧
      pack config.compression (s.entriesOf id p.name) = .ok a.bytes := by
  unfold compileOnWith compileWith at hok
  rcases hg : s.generate owner id with e | g
  · rw [hg] at hok
    cases hok
  rw [hg] at hok
  obtain ⟨hproject, hmodels⟩ := h.generate_eq_ok hg
  obtain rfl := Except.ok.inj (hproject.symm.trans hp)
  obtain ⟨hname, hmembers, hbytes, -⟩ :=
    Generation.of_compileWith_eq_ok ht hlinks (hmodels.isName_fileName h) (hmodels.nodup_fileNames h)
      hok
  rw [hmodels.entries_eq] at hmembers hbytes
  exact ⟨hname, hmembers, hbytes⟩

/-- Two projects have the same name and, in the order of the numbers, objects that are alike. If
both can be compiled, in whatever stores, for whatever owners and on whatever trees without links,
and if the settings have the same compression, then both compiles give the same archive. What the
compression makes of the entries is left open, as long as the same entries come out the same. -/
theorem alike_projects_compile_to_same_archive {pack : Archive.Packer}
    {config config' : CompilerConfig} {owner owner' : UserId} {t t' u u' : FileTree}
    {p p' : Project} {a a' : CompiledArchive} (hs : s.Reachable) (hs' : s'.Reachable)
    (ht : t.WellFormed) (ht' : t'.WellFormed)
    (hlinks : ∀ b, (StagingArea.mk config.stagingRoot).Settles t b → t.LinkFree b)
    (hlinks' : ∀ b, (StagingArea.mk config'.stagingRoot).Settles t' b → t'.LinkFree b)
    (hcompression : config.compression = config'.compression)
    (hp : s.getProject owner id = .ok p) (hp' : s'.getProject owner' id' = .ok p')
    (hname : p.name = p'.name)
    (hobjects : List.Forall₂ (Alike s s') (s.objectsOf id) (s'.objectsOf id'))
    (hok : s.compileOnWith pack config owner id t = (.ok a, u))
    (hok' : s'.compileOnWith pack config' owner' id' t' = (.ok a', u')) : a = a' := by
  obtain ⟨hfile, hmembers, hbytes⟩ := hs.consistent.archive_of_compile ht hlinks hp hok
  obtain ⟨hfile', hmembers', hbytes'⟩ := hs'.consistent.archive_of_compile ht' hlinks' hp' hok'
  have hentries : s.entriesOf id p.name = s'.entriesOf id' p'.name := by
    rw [hname]
    exact entriesOf_eq hobjects p'.name
  rw [← hname] at hfile'
  rw [← hentries] at hmembers' hbytes'
  rw [← hcompression, hbytes] at hbytes'
  cases a
  cases a'
  simp only [CompiledArchive.mk.injEq]
  exact ⟨hfile.trans hfile'.symm, Except.ok.inj hbytes', hmembers.trans hmembers'.symm⟩

set_option maxRecDepth 100000 in
/-- Projects of two users under different numbers, compiled with different settings, one on a tree
with an old model and one on an empty tree, have the same archive. -/
theorem price_of_any_type_of_number_compiles_to_same_archive :
    ∃ (s s' : Store) (config config' : CompilerConfig) (t t' u u' : FileTree)
      (a a' : CompiledArchive), s.Reachable ∧ s'.Reachable ∧
      s.attributes.rows = [⟨2, 1, 7, "price", 3, true, none⟩] ∧
      s'.attributes.rows = [⟨6, 5, 8, "price", 2, true, some "net"⟩] ∧
      config = ⟨⟨"/out"⟩, .stored, true⟩ ∧ config' = ⟨⟨"/tmp"⟩, .stored, false⟩ ∧
      t.nodes.length = 6 ∧ t'.nodes = [] ∧
      s.compileOnWith Archive.pack config 7 3 t = (.ok a, u) ∧
      s'.compileOnWith Archive.pack config' 8 9 t' = (.ok a', u') ∧ a = a' := by
  let s : Store := ⟨⟨[⟨3, "Shop", 7, 1, .epoch⟩], List.pairwise_singleton ..⟩,
    ⟨[⟨1, "Item", 3, 7, .epoch⟩], List.pairwise_singleton ..⟩,
    ⟨[⟨2, 1, 7, "price", 3, true, none⟩], List.pairwise_singleton ..⟩, .empty⟩
  let s' : Store := ⟨⟨[⟨4, "Other", 8, 1, .epoch⟩, ⟨9, "Shop", 8, 1, .epoch⟩], by decide⟩,
    ⟨[⟨5, "Item", 9, 8, .epoch⟩], List.pairwise_singleton ..⟩,
    ⟨[⟨6, 5, 8, "price", 2, true, some "net"⟩], List.pairwise_singleton ..⟩, .empty⟩
  let config : CompilerConfig := ⟨⟨"/out"⟩, .stored, true⟩
  let config' : CompilerConfig := ⟨⟨"/tmp"⟩, .stored, false⟩
  let t : FileTree := ⟨[([.text "out"], .directory), ([.text "out", .text "7"], .directory),
    ([.text "out", .text "7", .text "projects"], .directory),
    ([.text "out", .text "7", .text "projects", .text "3"], .directory),
    ([.text "out", .text "7", .text "projects", .text "3", .text "objects"], .directory),
    ([.text "out", .text "7", .text "projects", .text "3", .text "objects", .text "Item.js"],
      .file [])], []⟩
  let t' : FileTree := ⟨[], []⟩
  have hload : ofSnapshot s.snapshot = .ok s := by with_unfolding_all rfl
  have hload' : ofSnapshot s'.snapshot = .ok s' := by with_unfolding_all rfl
  have ht : t.WellFormed := by decide +kernel
  have ht' : t'.WellFormed := by decide +kernel
  have hlinks : ∀ b, (StagingArea.mk config.stagingRoot).Settles t b → t.LinkFree b :=
    fun b _ => FileTree.linkFree_of_nodes (by simp [t])
  have hlinks' : ∀ b, (StagingArea.mk config'.stagingRoot).Settles t' b → t'.LinkFree b :=
    fun b _ => FileTree.linkFree_of_nodes (by simp [t'])
  have hp : s.getProject 7 3 = .ok ⟨3, "Shop", 7, .sailsJs, .epoch⟩ := rfl
  have hp' : s'.getProject 8 9 = .ok ⟨9, "Shop", 8, .sailsJs, .epoch⟩ := rfl
  have hobjects : List.Forall₂ (Alike s s') (s.objectsOf 3) (s'.objectsOf 9) := by
    have hprice : s.attributesOf 1 = .ok [⟨2, 1, "price", .decimal, true, none⟩] := rfl
    have hprice' : s'.attributesOf 5 = .ok [⟨6, 5, "price", .integer, true, some "net"⟩] := rfl
    exact .cons ⟨rfl, _, _, hprice, hprice', .cons ⟨rfl, rfl, rfl⟩ .nil⟩ .nil
  have hok : (s.compileOnWith Archive.pack config 7 3 t).1.toOption.isSome := by decide +kernel
  have hok' : (s'.compileOnWith Archive.pack config' 8 9 t').1.toOption.isSome := by
    decide +kernel
  rcases hrun : s.compileOnWith Archive.pack config 7 3 t with ⟨e | a, u⟩
  · rw [hrun] at hok
    cases hok
  rcases hrun' : s'.compileOnWith Archive.pack config' 8 9 t' with ⟨e | a', u'⟩
  · rw [hrun'] at hok'
    cases hok'
  have hsame : a = a' := alike_projects_compile_to_same_archive (.loaded hload) (.loaded hload') ht
    ht' hlinks hlinks' rfl hp hp' rfl hobjects hrun hrun'
  exact ⟨s, s', config, config', t, t', u, u', a, a', .loaded hload, .loaded hload', rfl, rfl, rfl,
    rfl, rfl, rfl, hrun, hrun', hsame⟩

end SchemaForge.Store
