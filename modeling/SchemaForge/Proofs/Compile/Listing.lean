import SchemaForge.Proofs.Compile.Reproducible
import SchemaForge.Proofs.Compile.Success

/-!
# What a listing shows

A listing is cut at the lines that start like a banner. No line of a generated file does, and the
names in banners have no line breaks, so cutting gives back the paths and the texts of the files; and
these are what a compile packs.
-/

namespace SchemaForge

/-! ### Cutting a listing -/

namespace Listing

/-- Does a line start like a banner? -/
def isBanner (line : String) : Bool := "==> ".toList.isPrefixOf line.toList

/-- The name in a banner: what stands between the arrows. -/
def nameIn (banner : String) : String :=
  String.ofList ((banner.toList.drop 4).take (banner.toList.length - 8))

/-- The names in the banners among some lines, each with the lines up to the next banner. -/
def sections : List String → List (String × List String)
  | [] => []
  | line :: rest =>
    if isBanner line then (nameIn line, rest.takeWhile fun l => !isBanner l) :: sections rest
    else sections rest

/-- The entries that a listing shows. -/
def entries (listing : String) : List Archive.Entry :=
  (sections (Text.lines listing)).map fun (name, lines) =>
    ⟨name, Text.utf8 ("\n".intercalate lines)⟩

/-- Only a line that starts with an equals sign may start like a banner. -/
theorem isBanner_append {front behind : String} {c : Char} (h : front.toList.head? = some c)
    (hc : c ≠ '=') : isBanner (front ++ behind) = false := by
  obtain ⟨cs, hcs⟩ := List.head?_eq_some_iff.mp h
  rw [isBanner, String.toList_append, hcs]
  show (('=' == c) && _) = false
  rw [beq_false_of_ne hc.symm, Bool.false_and]

variable {lines rest : List String}

theorem sections_append (h : ∀ line ∈ lines, isBanner line = false) :
    sections (lines ++ rest) = sections rest := by
  induction lines with
  | nil => rfl
  | cons line lines ih =>
    obtain ⟨hline, hlines⟩ := List.forall_mem_cons.mp h
    rw [List.cons_append, sections, hline, ih hlines]
    rfl

/-- Lines that start like no banner, each time behind one that does. -/
theorem sections_flatMap {α : Type} {banner : α → String} {body : α → List String} {as : List α}
    (hbanner : ∀ a ∈ as, isBanner (banner a) = true)
    (hbody : ∀ a ∈ as, ∀ line ∈ body a, isBanner line = false) :
    sections (as.flatMap fun a => banner a :: body a) =
      as.map fun a => (nameIn (banner a), body a) := by
  induction as with
  | nil => rfl
  | cons a as ih =>
    obtain ⟨hfirst, hbanner⟩ := List.forall_mem_cons.mp hbanner
    obtain ⟨hlines, hbody⟩ := List.forall_mem_cons.mp hbody
    -- the lines behind the first banner end where the next one stands
    have hmore : (as.flatMap fun a => banner a :: body a).takeWhile (fun l => !isBanner l) = [] := by
      cases as with
      | nil => rfl
      | cons b as =>
        rw [List.flatMap_cons, List.cons_append, List.takeWhile_cons_of_neg]
        rw [hbanner b List.mem_cons_self]
        decide
    have hsection : (body a ++ as.flatMap fun a => banner a :: body a).takeWhile
        (fun l => !isBanner l) = body a := by
      rw [List.takeWhile_append_of_pos, hmore, List.append_nil]
      intro line hline
      rw [hlines line hline]
      rfl
    rw [List.flatMap_cons, List.cons_append, sections, if_pos hfirst, hsection,
      sections_append hlines, ih hbanner hbody]
    rfl

end Listing

/-! ### Lines of generated files -/

namespace ModelFile

variable {o : Object} {attributes : List Attribute}

/-- A line of a model file has no line break in it and does not start like a banner. -/
def Plain (line : String) : Prop := '\n' ∉ line.toList ∧ Listing.isBanner line = false

instance (line : String) : Decidable (Plain line) := inferInstanceAs (Decidable (_ ∧ _))

theorem plain_entryLine {a : Attribute} (h : Naming.checkAttributeName a.name = .ok ()) :
    Plain (entryLine a) := by
  refine ⟨not_mem_entryLine h, ?_⟩
  simp only [entryLine, String.append_assoc]
  exact Listing.isBanner_append rfl (by decide)

theorem plain_of_mem_lines (ho : Naming.checkObjectName o.name = .ok ())
    (hattributes : ∀ a ∈ attributes, Naming.checkAttributeName a.name = .ok ()) :
    ∀ line ∈ lines o attributes, Plain line := by
  have hopening : ∀ line ∈ opening o, Listing.isBanner line = false :=
    List.forall_mem_cons.mpr ⟨Listing.isBanner_append rfl (by decide), by decide⟩
  have hbanner := forall_mem_lines hopening
    (fun a ha => (plain_entryLine (hattributes a ha)).2) (by decide)
  exact fun line hline => ⟨not_mem_of_mem_lines ho hattributes line hline, hbanner line hline⟩

theorem not_isBanner_of_mem_source (ho : Naming.checkObjectName o.name = .ok ())
    (hattributes : ∀ a ∈ attributes, Naming.checkAttributeName a.name = .ok ()) :
    ∀ line ∈ Text.lines (ofObject o attributes).source, Listing.isBanner line = false := by
  have hplain := plain_of_mem_lines ho hattributes
  intro line hline
  rw [lines_source ho hattributes] at hline
  rcases List.mem_append.mp hline with hline | hline
  · exact (hplain line hline).2
  · rw [List.mem_singleton.mp hline]
    decide

end ModelFile

/-! ### Listings of generated files -/

namespace Generation

theorem isBanner_banner (project path : String) : Listing.isBanner (banner project path) = true := by
  rw [Listing.isBanner, banner, List.isPrefixOf_iff_prefix]
  simp only [String.toList_append, List.append_assoc]
  exact List.prefix_append _ _

theorem nameIn_banner (project path : String) :
    Listing.nameIn (banner project path) = entryName project path := by
  have hchars : (banner project path).toList =
      "==> ".toList ++ ((entryName project path).toList ++ " <==".toList) := by
    simp only [banner, String.toList_append, List.append_assoc]
  have hlength : (banner project path).toList.length - 8 =
      (entryName project path).toList.length := by
    rw [hchars, List.length_append, List.length_append]
    show 4 + (_ + 4) - 8 = _
    omega
  rw [Listing.nameIn, hlength, hchars, List.drop_append_of_le_length (Nat.le_refl 4),
    ← String.toList_inj, String.toList_ofList]
  show ([] ++ _).take _ = _
  rw [List.nil_append, List.take_left]

variable {g : Generation}

/-- A listing is cut into the files that it is made of. -/
theorem entries_listing (hbreak : ∀ m ∈ g.models, '\n' ∉ (banner g.project.name m.file.path).toList)
    (hplain : ∀ m ∈ g.models, ∀ line ∈ Text.lines m.file.source, Listing.isBanner line = false) :
    Listing.entries g.listing = g.models.map (entry g.project.name) := by
  rcases hmodels : g.models with _ | ⟨m, models⟩
  · rw [listing, hmodels]
    rfl
  rw [← hmodels]
  have hne : g.models.map (listed g.project.name) ≠ [] := by
    rw [hmodels]
    exact List.cons_ne_nil _ _
  have hlines : Text.lines g.listing = g.models.flatMap fun m =>
      banner g.project.name m.file.path :: Text.lines m.file.source := by
    rw [listing, Text.lines_intercalate hne, List.flatMap_map]
    apply List.flatMap_congr
    intro m hm
    rw [listed, Text.lines_append_break, Text.lines_of_not_mem (hbreak m hm)]
    rfl
  have hbanner : ∀ m ∈ g.models,
      Listing.isBanner (banner g.project.name m.file.path) = true :=
    fun m _ => isBanner_banner g.project.name m.file.path
  rw [Listing.entries, hlines, Listing.sections_flatMap hbanner hplain, List.map_map]
  apply List.map_congr_left
  intro m _
  show Archive.Entry.mk (Listing.nameIn _) (Text.utf8 ("\n".intercalate (Text.lines _))) = _
  rw [nameIn_banner, Text.intercalate_lines]
  rfl

end Generation

namespace Store

variable {s s' : Store} {owner owner' : UserId} {id id' : ProjectId} {g g' : Generation}

/-- The names that go into a listing have no line breaks, and the lines of generated files start with
something else than a banner does. -/
theorem Consistent.entries_listing (hs : s.Consistent) (hg : s.generate owner id = .ok g) :
    (∀ m ∈ g.models, ∀ line ∈ Text.lines m.file.source, Listing.isBanner line = false) ∧
      Listing.entries g.listing = g.models.map (Generation.entry g.project.name) := by
  obtain ⟨hproject, hmodels⟩ := hs.generate_eq_ok hg
  have hnamed : ∀ m ∈ g.models, Naming.checkObjectName m.object.name = .ok () := fun m hm =>
    hs.object_named _ (mem_objectsOf_iff.mp (hmodels.object_mem hm)).1
  have hplain : ∀ m ∈ g.models, ∀ line ∈ Text.lines m.file.source,
      Listing.isBanner line = false := by
    intro m hm
    obtain ⟨attributes, hattributes, hfile⟩ := hmodels.files m hm
    rw [hfile]
    apply ModelFile.not_isBanner_of_mem_source (hnamed m hm)
    intro a ha
    obtain ⟨row, hrow, hdecoded⟩ := (mem_decodedAll_iff hattributes).mp ha
    rw [AttributeRow.name_of_toAttribute hdecoded]
    exact hs.attribute_named row (List.mem_filter.mp hrow).1
  refine ⟨hplain, Generation.entries_listing (fun m hm => ?_) hplain⟩
  have hname := Naming.not_mem_of_checkIdentifier (hnamed m hm) (c := '\n') (by decide)
  have hprojectName : '\n' ∉ g.project.name.toList := by
    intro hbreak
    obtain ⟨-, -, -, hchars⟩ :=
      Naming.checkProjectName_eq_ok_iff.mp (hs.checkProjectName_of_getProject hproject)
    exact absurd (hchars _ hbreak).2.2 (by decide)
  rw [(hmodels.files m hm).path_eq]
  simp only [Generation.banner, Generation.entryName, ModelFile.pathOf, ModelFile.nameOf,
    String.toList_append, List.mem_append, hname, hprojectName, false_or]
  decide

/-- A listing is cut, at the lines that start like a banner, into the names and the contents of the
entries of the archive that a compile answers with. No line of a generated file is taken for a banner,
and listings of different files are different. -/
theorem listing_shows_archive {pack : Archive.Packer}
    {unpack? : Bytes → Option (List Archive.Entry)} {config : CompilerConfig} {t t' : FileTree}
    {a : CompiledArchive}
    (hpack : Archive.Faithful pack unpack? config.compression
      (g.models.map (Generation.entry g.project.name)))
    (hs : s.Reachable) (ht : t.WellFormed)
    (hlinks : ∀ b, (StagingArea.mk config.stagingRoot).Settles t b → t.LinkFree b)
    (hg : s.generate owner id = .ok g)
    (h : s.compileOnWith pack config owner id t = (.ok a, t')) :
    unpack? a.bytes = some (Listing.entries g.listing) ∧
      (∀ m ∈ g.models, ∀ line ∈ Text.lines m.file.source, Listing.isBanner line = false) ∧
      ∀ (s' : Store) (owner' : UserId) (id' : ProjectId) (g' : Generation), s'.Reachable →
        s'.generate owner' id' = .ok g' → g'.listing = g.listing →
        g'.models.map (Generation.entry g'.project.name) =
          g.models.map (Generation.entry g.project.name) := by
  obtain ⟨hplain, hentries⟩ := hs.consistent.entries_listing hg
  obtain ⟨hproject, hmodels⟩ := hs.consistent.generate_eq_ok hg
  obtain ⟨-, -, hbytes⟩ := hs.consistent.archive_of_compile ht hlinks hproject h
  refine ⟨?_, hplain, fun s' owner' id' g' hs' hg' hsame => ?_⟩
  · rw [hentries]
    apply hpack
    rw [hmodels.entries_eq]
    exact hbytes
  · rw [← (hs'.consistent.entries_listing hg').2, hsame, hentries]

set_option maxRecDepth 100000 in
/-- A project whose name looks like a banner. -/
theorem listing_of_misleading_name_shows_archive :
    ∃ (s : Store) (config : CompilerConfig) (t t' : FileTree) (a : CompiledArchive)
      (g : Generation) (entry : Archive.Entry),
      entry = ⟨"==> Shop <==/api/models/Item.js", Text.utf8
        (ModelFile.ofObject ⟨1, "Item", 3, 7, .epoch⟩ [⟨2, 1, "price", .decimal, true, none⟩]).source⟩ ∧
      s.Reachable ∧ s.generate 7 3 = .ok g ∧
      s.compileOn config 7 3 t = (.ok a, t') ∧
      Archive.entries? a.bytes = some (Listing.entries g.listing) ∧
      Listing.entries g.listing = [entry] := by
  let item : Object := ⟨1, "Item", 3, 7, .epoch⟩
  let price : Attribute := ⟨2, 1, "price", .decimal, true, none⟩
  let entry : Archive.Entry :=
    ⟨"==> Shop <==/api/models/Item.js", Text.utf8 (ModelFile.ofObject item [price]).source⟩
  let s : Store := ⟨⟨[⟨3, "==> Shop <==", 7, 1, .epoch⟩], List.pairwise_singleton ..⟩,
    ⟨[item], List.pairwise_singleton ..⟩,
    ⟨[⟨2, 1, 7, "price", 3, true, none⟩], List.pairwise_singleton ..⟩, .empty⟩
  let g : Generation := ⟨⟨3, "==> Shop <==", 7, .sailsJs, .epoch⟩,
    [⟨item, ModelFile.ofObject item [price]⟩]⟩
  let config : CompilerConfig := ⟨⟨"/out"⟩, .stored, true⟩
  let t : FileTree := ⟨[([.text "out"], .directory)], []⟩
  have hs : s.Reachable := reachable_of_isOk (by decide +kernel)
  have hg : s.generate 7 3 = .ok g := rfl
  have hentry : g.models.map (Generation.entry g.project.name) = [entry] := rfl
  have hmodest : Archive.Modest [entry] := ⟨by decide, by decide +kernel, by decide +kernel⟩
  have hpack : ∃ bytes, Archive.pack config.compression
      (g.models.map (Generation.entry g.project.name)) = .ok bytes := by
    rw [hentry]
    exact ⟨_, Archive.pack_eq_ok_iff.mpr ⟨List.nodup_singleton _, by decide +kernel, rfl⟩⟩
  have htidy : (StagingArea.mk config.stagingRoot).Tidy t [.text "out"] := by
    refine StagingArea.tidy_of_empty (by decide +kernel)
      ((if_neg (by decide)).mpr (by decide +kernel)) (by decide +kernel) fun rest n hn => ?_
    simp [t, FileTree.get?, FileTree.lookup_cons_ite] at hn
    exact hn.1
  obtain ⟨-, hmodels⟩ := hs.consistent.generate_eq_ok hg
  obtain ⟨a, t', hrun, -⟩ := Generation.exists_compileWith 7 3 htidy (by decide)
    (fun m hm => hs.consistent.layoutName_nameOf (hmodels.object_mem hm))
    (hmodels.nodup_fileNames hs.consistent) hpack
  have hcompile : s.compileOn config 7 3 t = (.ok a, t') := by
    unfold compileOn compileOnWith compileWith
    rw [hg]
    exact hrun
  obtain ⟨hbytes, -, -⟩ := listing_shows_archive hmodest.faithful hs
    htidy.wellFormed (fun b _ => FileTree.linkFree_of_nodes (by simp [t])) hg hcompile
  refine ⟨s, config, t, t', a, g, entry, rfl, hs, hg, hcompile, hbytes, ?_⟩
  rw [(hs.consistent.entries_listing hg).2, hentry]

end Store

end SchemaForge
