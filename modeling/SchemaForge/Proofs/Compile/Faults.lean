import Mathlib.Data.Prod.Lex
import SchemaForge.Compile.Run
import SchemaForge.Proofs.Store.Invariant
import SchemaForge.Proofs.Store.Readable

/-!
# What generating stops at

Generating looks at the row of the project, then at its objects in the order of their numbers, and
for each object at its attributes in the order of theirs. It stops at the first fault, and the first
fault of a list is found where the list is cut: all that stands before it can be read. Rows of other
projects are not looked at, and nothing is asked of the staging area before the models are there.
-/

namespace SchemaForge

/-! ### Numbers that stand for something -/

theorem TargetLanguage.exists_ofCode?_iff {code : UInt8} :
    (∃ l, ofCode? code = some l) ↔ code = 1 := by
  constructor
  · rintro ⟨l, h⟩
    have hfound := List.find?_some h
    cases l
    exact (beq_iff_eq.mp hfound).symm
  · rintro rfl
    exact ⟨.sailsJs, rfl⟩

theorem AttributeType.exists_ofCode?_iff {code : UInt8} :
    (∃ t, ofCode? code = some t) ↔ 1 ≤ code ∧ code ≤ 7 := by
  constructor
  · rintro ⟨t, h⟩
    rw [ofCode?_eq_some_iff.mp h]
    cases t <;> decide
  · rintro ⟨hleast, hmost⟩
    have hcodes : code = 1 ∨ code = 2 ∨ code = 3 ∨ code = 4 ∨ code = 5 ∨ code = 6 ∨ code = 7 := by
      rw [UInt8.le_iff_toNat_le] at hleast hmost
      simp only [← UInt8.toNat_inj]
      simp only [UInt8.reduceToNat] at hleast hmost ⊢
      omega
    rcases hcodes with rfl | rfl | rfl | rfl | rfl | rfl | rfl
    all_goals exact ⟨_, rfl⟩

theorem ProjectRow.toProject_of_language {row : ProjectRow} (h : row.languageCode = 1) :
    row.toProject = .ok ⟨row.id, row.name, row.owner, .sailsJs, row.createdAt⟩ := by
  rw [toProject, h]
  rfl

theorem ProjectRow.toProject_of_unknown {row : ProjectRow} (h : row.languageCode ≠ 1) :
    row.toProject = .error ⟨.project, row.id, .unknownLanguage row.languageCode⟩ := by
  unfold toProject
  split
  · next l hl => exact absurd (TargetLanguage.exists_ofCode?_iff.mp ⟨l, hl⟩) h
  · rfl

/-- Does the number for the type of an attribute stand for nothing? -/
def AttributeRow.Unreadable (row : AttributeRow) : Prop := ¬(1 ≤ row.typeCode ∧ row.typeCode ≤ 7)

theorem AttributeRow.exists_toAttribute {row : AttributeRow} (h : ¬row.Unreadable) :
    ∃ a, row.toAttribute = .ok a := by
  obtain ⟨t, ht⟩ := AttributeType.exists_ofCode?_iff.mpr (not_not.mp h)
  exact ⟨⟨row.id, row.objectId, row.name, t, row.required, row.description⟩, by
    rw [toAttribute, ht]⟩

theorem AttributeRow.toAttribute_of_unreadable {row : AttributeRow} (h : row.Unreadable) :
    row.toAttribute = .error ⟨.attr, row.id, .unknownType row.typeCode⟩ := by
  unfold toAttribute
  split
  · next t ht => exact absurd (AttributeType.exists_ofCode?_iff.mp ⟨t, ht⟩) h
  · rfl

namespace Store

variable {s s' : Store} {owner : UserId} {id : ProjectId}

/-! ### Lists that are cut at a fault -/

theorem decodedAll_of_cut {ρ α : Type} {decode : ρ → Except CorruptRow α} {before after : List ρ}
    {row : ρ} {c : CorruptRow} (hbefore : ∀ r ∈ before, ∃ a, decode r = .ok a)
    (hrow : decode row = .error c) :
    decodedAll decode (before ++ row :: after) = .error (.corrupt c) := by
  induction before with
  | nil =>
    rw [List.nil_append, decodedAll, hrow]
    rfl
  | cons r before ih =>
    obtain ⟨a, ha⟩ := hbefore r List.mem_cons_self
    have hrest := ih fun r' hr' => hbefore r' (List.mem_cons_of_mem _ hr')
    rw [List.cons_append, decodedAll, ha, hrest]
    rfl

/-- Rows in the order of their numbers are cut at one of them. -/
theorem exists_cut {α : Type} [Numbered α] {rows : List α} {row : α}
    (hrows : rows.Pairwise fun a b => Numbered.number a < Numbered.number b) (hrow : row ∈ rows) :
    ∃ before after, rows = before ++ row :: after ∧
      ∀ r ∈ before, r ∈ rows ∧ Numbered.number r < Numbered.number row := by
  obtain ⟨before, after, rfl⟩ := List.append_of_mem hrow
  exact ⟨before, after, rfl, fun r hr => ⟨List.mem_append_left _ hr,
    (List.pairwise_append.mp hrows).2.2 r hr row List.mem_cons_self⟩⟩

theorem modelsOf_of_cut {before after : List Object} {o : Object} {e : StoreError}
    (hobjects : ∀ o' ∈ before ++ o :: after, o' ∈ s.objects.rows ∧ o'.owner = owner)
    (hbefore : ∀ o' ∈ before, ∃ attributes, s.attributesOf o'.id = .ok attributes)
    (ho : s.attributesOf o.id = .error e) :
    s.modelsOf owner (before ++ o :: after) = .error e := by
  induction before with
  | nil =>
    obtain ⟨hmem, howner⟩ := hobjects o List.mem_cons_self
    rw [List.nil_append, modelsOf, listAttributes_of_mem hmem howner, ho]
    rfl
  | cons o' before ih =>
    obtain ⟨hmem, howner⟩ := hobjects o' List.mem_cons_self
    obtain ⟨attributes, hattributes⟩ := hbefore o' List.mem_cons_self
    have hrest := ih (fun r hr => hobjects r (List.mem_cons_of_mem _ hr))
      fun r hr => hbefore r (List.mem_cons_of_mem _ hr)
    rw [List.cons_append, modelsOf, listAttributes_of_mem hmem howner, hattributes, hrest]
    rfl

/-! ### The rows of a project -/

/-- Does the user have the project of this row under a number? -/
structure Has (s : Store) (owner : UserId) (id : ProjectId) (row : ProjectRow) : Prop where
  mem : row ∈ s.projects.rows
  id_eq : row.id = id
  owner_eq : row.owner = owner

theorem has_iff {row : ProjectRow} : s.Has owner id row ↔ s.project owner id = .ok row := by
  rw [project_eq_ok_iff, Table.find?_eq_some_iff]
  exact ⟨fun h => ⟨⟨h.mem, h.id_eq⟩, h.owner_eq⟩, fun h => ⟨h.1.1, h.1.2, h.2⟩⟩

/-- Is this an attribute of an object of a project? -/
structure HoldsAttribute (s : Store) (id : ProjectId) (row : AttributeRow) : Prop where
  mem : row ∈ s.attributes.rows
  housed : ∃ o ∈ s.objects.rows, o.projectId = id ∧ o.id = row.objectId

/-- Of the attributes of a project that cannot be read, is this the first, in the order of objects and
then of attributes? -/
structure FirstUnreadable (s : Store) (id : ProjectId) (row : AttributeRow) : Prop where
  held : s.HoldsAttribute id row
  unreadable : row.Unreadable
  first : ∀ row', s.HoldsAttribute id row' → row'.Unreadable →
    row.objectId < row'.objectId ∨ row.objectId = row'.objectId ∧ row.id ≤ row'.id

theorem exists_firstUnreadable {row : AttributeRow} (hheld : s.HoldsAttribute id row)
    (hrow : row.Unreadable) : ∃ row, s.FirstUnreadable id row := by
  -- what comes first has the least place
  let place (row : AttributeRow) : ℕ ×ₗ ℕ := toLex (row.objectId.toNat, row.id.toNat)
  obtain ⟨row, ⟨hheld, hrow⟩, hleast⟩ := (InvImage.wf place wellFounded_lt).has_min
    {row | s.HoldsAttribute id row ∧ row.Unreadable} ⟨row, hheld, hrow⟩
  refine ⟨row, hheld, hrow, fun row' hheld' hrow' => ?_⟩
  have hle := not_lt.mp (hleast row' ⟨hheld', hrow'⟩)
  rcases Prod.Lex.le_iff.mp hle with hlt | ⟨heq, hle⟩
  · exact .inl (UInt64.lt_iff_toNat_lt.mpr hlt)
  · exact .inr ⟨UInt64.toNat_inj.mp heq, UInt64.le_iff_toNat_le.mpr hle⟩

theorem exists_attributesOf {o : Object} (ho : o ∈ s.objects.rows)
    (hproject : o.projectId = id)
    (h : ∀ row, s.HoldsAttribute id row → row.objectId = o.id → ¬row.Unreadable) :
    ∃ attributes, s.attributesOf o.id = .ok attributes := by
  apply Readable.exists_decodedAll
  intro row hrow
  obtain ⟨hrow, hobject⟩ := List.mem_filter.mp hrow
  have hobject : row.objectId = o.id := beq_iff_eq.mp hobject
  exact AttributeRow.exists_toAttribute (h row ⟨hrow, o, ho, hproject, hobject.symm⟩ hobject)

namespace FirstUnreadable

variable {row : AttributeRow} (h : s.FirstUnreadable id row)

include h

/-- The attributes of its object are cut where it stands. -/
theorem attributesOf_eq_error :
    s.attributesOf row.objectId = .error (.corrupt ⟨.attr, row.id, .unknownType row.typeCode⟩) := by
  obtain ⟨o, ho, hproject, hobject⟩ := h.held.housed
  have hmem : row ∈ s.attributes.rows.filter fun r => r.objectId == row.objectId :=
    List.mem_filter.mpr ⟨h.held.mem, beq_self_eq_true _⟩
  obtain ⟨before, after, hcut, hbefore⟩ := exists_cut (s.attributes.ascending.filter _) hmem
  rw [attributesOf, hcut]
  apply decodedAll_of_cut _ (AttributeRow.toAttribute_of_unreadable h.unreadable)
  intro r hr
  obtain ⟨hmem', hlt⟩ := hbefore r hr
  obtain ⟨hmem', hobject'⟩ := List.mem_filter.mp hmem'
  have hobject' : r.objectId = row.objectId := beq_iff_eq.mp hobject'
  apply AttributeRow.exists_toAttribute
  intro hr'
  -- a row of this object that stands before it has a smaller number
  rcases h.first r ⟨hmem', o, ho, hproject, hobject.trans hobject'.symm⟩ hr' with hbelow | ⟨-, hle⟩
  · rw [hobject'] at hbelow
    exact UInt64.lt_irrefl _ hbelow
  · exact absurd hlt (UInt64.not_lt.mpr hle)

/-- The objects are cut where its object stands. -/
theorem modelsOf_eq_error
    (howner : ∀ o ∈ s.objectsOf id, o ∈ s.objects.rows ∧ o.owner = owner) :
    s.modelsOf owner (s.objectsOf id) =
      .error (.corrupt ⟨.attr, row.id, .unknownType row.typeCode⟩) := by
  obtain ⟨o, ho, hproject, hobject⟩ := h.held.housed
  obtain ⟨before, after, hcut, hbefore⟩ :=
    exists_cut (s.ascending_objectsOf id) (mem_objectsOf_iff.mpr ⟨ho, hproject⟩)
  rw [hcut] at howner ⊢
  apply modelsOf_of_cut howner _ (hobject ▸ h.attributesOf_eq_error)
  intro o' ho'
  obtain ⟨hmem', hlt⟩ := hbefore o' ho'
  obtain ⟨hmem', hproject'⟩ := mem_objectsOf_iff.mp hmem'
  apply exists_attributesOf hmem' hproject'
  intro row' hheld' hobject' hrow'
  have hlt : row'.objectId < row.objectId := hobject' ▸ hobject ▸ hlt
  rcases h.first row' hheld' hrow' with hbelow | ⟨heq, -⟩
  · exact UInt64.lt_asymm hlt hbelow
  · exact UInt64.lt_irrefl _ (heq ▸ hlt)

end FirstUnreadable

/-! ### Generating -/

/-- What is generated for a project that the user has, by its rows. -/
theorem Consistent.generate_eq (hs : s.Consistent) {row : ProjectRow}
    (hrow : s.project owner id = .ok row) :
    s.generate owner id = Except.mapError CompileError.ofStore
      (decoded row.toProject >>= fun project =>
        s.modelsOf owner (s.objectsOf id) >>= fun models => .ok ⟨project, models⟩) := by
  rw [generate, getProject, hs.listObjects_eq_ok hrow, hrow]
  rfl

theorem Consistent.owner_of_objectsOf (hs : s.Consistent) {row : ProjectRow}
    (hrow : s.Has owner id row) :
    ∀ o ∈ s.objectsOf id, o ∈ s.objects.rows ∧ o.owner = owner := by
  intro o ho
  obtain ⟨ho, hproject⟩ := mem_objectsOf_iff.mp ho
  exact ⟨ho, (hs.owner_eq hrow.mem ho (hproject.trans hrow.id_eq.symm)).trans hrow.owner_eq⟩

/-- The first attribute that cannot be read is reported, and where there is none, there is a model for
each object. -/
theorem Consistent.generate_of_language (hs : s.Consistent) {row : ProjectRow}
    (hrow : s.Has owner id row) (hlanguage : row.languageCode = 1) :
    (∃ a, s.FirstUnreadable id a ∧ s.generate owner id =
        .error (.inconsistent ⟨.attr, a.id, .unknownType a.typeCode⟩)) ∨
      (∀ a, s.HoldsAttribute id a → ¬a.Unreadable) ∧ ∃ g, s.generate owner id = .ok g ∧
        g.project = ⟨row.id, row.name, row.owner, .sailsJs, row.createdAt⟩ ∧
        g.models.map GeneratedModel.object = s.objectsOf id := by
  have howner := hs.owner_of_objectsOf hrow
  rw [hs.generate_eq (has_iff.mp hrow), ProjectRow.toProject_of_language hlanguage]
  by_cases hfault : ∃ a, s.HoldsAttribute id a ∧ a.Unreadable
  · obtain ⟨a, hheld, ha⟩ := hfault
    obtain ⟨first, hfirst⟩ := exists_firstUnreadable hheld ha
    refine .inl ⟨first, hfirst, ?_⟩
    rw [hfirst.modelsOf_eq_error howner]
    rfl
  · have hreads : ∀ a, s.HoldsAttribute id a → ¬a.Unreadable := fun a hheld ha =>
      hfault ⟨a, hheld, ha⟩
    obtain ⟨models, hmodels⟩ := exists_modelsOf howner fun o ho => by
      obtain ⟨ho, hproject⟩ := mem_objectsOf_iff.mp ho
      exact exists_attributesOf ho hproject fun a hheld _ => hreads a hheld
    refine .inr ⟨hreads, ⟨_, models⟩, ?_, rfl, (modelsOf_eq_ok hmodels).1⟩
    rw [hmodels]
    rfl

theorem Consistent.generate_of_unknown (hs : s.Consistent) {row : ProjectRow}
    (hrow : s.Has owner id row) (hlanguage : row.languageCode ≠ 1) :
    s.generate owner id =
      .error (.inconsistent ⟨.project, id, .unknownLanguage row.languageCode⟩) := by
  rw [hs.generate_eq (has_iff.mp hrow), ProjectRow.toProject_of_unknown hlanguage, hrow.id_eq]
  rfl

theorem generate_of_missing (h : ¬∃ row, s.Has owner id row) :
    s.generate owner id = .error (.projectNotFound id) := by
  rcases hrow : s.project owner id with e | row
  · exact generate_of_project_eq_error hrow
  · exact absurd ⟨row, has_iff.mpr hrow⟩ h

/-! ### What is not looked at -/

/-- Do two stores have the same row of a project, with the same objects and attributes? -/
structure AgreeOn (id : ProjectId) (s s' : Store) : Prop where
  project : ∀ row, row.id = id → (row ∈ s'.projects.rows ↔ row ∈ s.projects.rows)
  object : ∀ o, o.projectId = id → (o ∈ s'.objects.rows ↔ o ∈ s.objects.rows)
  held : ∀ row, s'.HoldsAttribute id row ↔ s.HoldsAttribute id row

namespace AgreeOn

variable (h : AgreeOn id s s')

include h

theorem project_eq : s'.project owner id = s.project owner id := by
  have hfind : s'.projects.find? id = s.projects.find? id := by
    apply Option.ext
    intro row
    rw [Table.find?_eq_some_iff, Table.find?_eq_some_iff]
    exact and_congr_left fun hid => h.project row hid
  rw [Store.project, Store.project, hfind]

theorem objectsOf_eq : s'.objectsOf id = s.objectsOf id := by
  have htable : s'.objects.filter (fun o => o.projectId == id) =
      s.objects.filter (fun o => o.projectId == id) := by
    apply Table.eq_of_mem_iff
    intro o
    rw [Table.mem_filter_iff, Table.mem_filter_iff, beq_iff_eq]
    exact and_congr_left fun hproject => h.object o hproject
  exact congrArg Table.rows htable

theorem listAttributes_eq {o : Object} (ho : o ∈ s.objectsOf id) :
    s'.listAttributes owner o.id = s.listAttributes owner o.id := by
  obtain ⟨hmem, hproject⟩ := mem_objectsOf_iff.mp ho
  have hmem' := (h.object o hproject).mpr hmem
  have htable : s'.attributes.filter (fun row => row.objectId == o.id) =
      s.attributes.filter (fun row => row.objectId == o.id) := by
    apply Table.eq_of_mem_iff
    intro row
    rw [Table.mem_filter_iff, Table.mem_filter_iff, beq_iff_eq]
    refine and_congr_left fun hobject => ⟨fun hrow => ?_, fun hrow => ?_⟩
    · exact ((h.held row).mp ⟨hrow, o, hmem', hproject, hobject.symm⟩).mem
    · exact ((h.held row).mpr ⟨hrow, o, hmem, hproject, hobject.symm⟩).mem
  have hfind : s.objects.find? o.id = some o := Table.find?_number hmem
  have hfind' : s'.objects.find? o.id = some o := Table.find?_number hmem'
  have hrows := congrArg Table.rows htable
  rw [Table.rows_filter, Table.rows_filter] at hrows
  rw [listAttributes, listAttributes, hfind, hfind', hrows]

theorem modelsOf_eq {objects : List Object} (hobjects : ∀ o ∈ objects, o ∈ s.objectsOf id) :
    s'.modelsOf owner objects = s.modelsOf owner objects := by
  induction objects with
  | nil => rfl
  | cons o rest ih =>
    rw [modelsOf, modelsOf, h.listAttributes_eq (hobjects o List.mem_cons_self),
      ih fun o' ho' => hobjects o' (List.mem_cons_of_mem _ ho')]

theorem generate_eq : s'.generate owner id = s.generate owner id := by
  have hlist (s : Store) : s.listObjects owner id =
      s.project owner id >>= fun _ => .ok ((s.objectsOf id).filter fun o => o.owner == owner) := by
    rw [objectsOf, List.filter_filter]
    rfl
  rw [generate, generate, getProject, getProject, hlist, hlist, h.project_eq, h.objectsOf_eq]
  rcases s.project owner id with e | row
  · rfl
  · have hmodels : s'.modelsOf owner ((s.objectsOf id).filter fun o => o.owner == owner) =
        s.modelsOf owner ((s.objectsOf id).filter fun o => o.owner == owner) :=
      h.modelsOf_eq fun o ho => (List.mem_filter.mp ho).1
    show Except.mapError _ (decoded row.toProject >>= fun project => s'.modelsOf owner _ >>= _) = _
    rw [hmodels]
    rfl

end AgreeOn

/-- Generating reports that the user has no such project, or else that the number of its language
stands for nothing, or else the first attribute whose type stands for nothing; if there is none, there
is a model for each object. Rows of other projects do not matter. A compile reports what generating
reports, and asks nothing of the staging area then. -/
theorem generating_reports_first_fault (h : s.Reachable) (owner : UserId) (id : ProjectId) :
    (s.generate owner id = .error (.projectNotFound id) ↔ ¬∃ row, s.Has owner id row) ∧
    (∀ row, s.Has owner id row →
      (s.generate owner id =
          .error (.inconsistent ⟨.project, id, .unknownLanguage row.languageCode⟩) ↔
        row.languageCode ≠ 1) ∧
      (row.languageCode = 1 →
        (∃ a, s.FirstUnreadable id a ∧ s.generate owner id =
            .error (.inconsistent ⟨.attr, a.id, .unknownType a.typeCode⟩)) ∨
          (∀ a, s.HoldsAttribute id a → ¬a.Unreadable) ∧ ∃ g, s.generate owner id = .ok g ∧
            g.project = ⟨row.id, row.name, row.owner, .sailsJs, row.createdAt⟩ ∧
            g.models.map GeneratedModel.object = s.objectsOf id)) ∧
    (∀ s', AgreeOn id s s' → s'.generate owner id = s.generate owner id) ∧
    ∀ (pack : Archive.Packer) (config : CompilerConfig) (t : FileTree) (e : CompileError),
      s.generate owner id = .error e →
      s.compileWith pack config owner id = .done (.error e) ∧
        s.compileOnWith pack config owner id t = (.error e, t) := by
  have hs := h.consistent
  refine ⟨⟨?_, generate_of_missing⟩, fun row hrow => ⟨⟨?_, hs.generate_of_unknown hrow⟩,
    hs.generate_of_language hrow⟩, fun s' hsame => hsame.generate_eq, ?_⟩
  · rintro hmissing ⟨row, hrow⟩
    by_cases hlanguage : row.languageCode = 1
    · rcases hs.generate_of_language hrow hlanguage with ⟨a, -, hfails⟩ | ⟨-, g, hok, -⟩
      · cases hmissing.symm.trans hfails
      · cases hmissing.symm.trans hok
    · cases hmissing.symm.trans (hs.generate_of_unknown hrow hlanguage)
  · intro hfails hlanguage
    rcases hs.generate_of_language hrow hlanguage with ⟨a, -, hfails'⟩ | ⟨-, g, hok, -⟩
    · cases hfails.symm.trans hfails'
    · cases hfails.symm.trans hok
  · intro pack config t e hfails
    have hscript : s.compileWith pack config owner id = .done (.error e) := by
      rw [compileWith, hfails]
      rfl
    refine ⟨hscript, ?_⟩
    rw [compileOnWith, hscript]
    rfl

/-- Two attributes have types that stand for nothing. The one with the smaller number belongs to the
later object, so the other one is reported, whatever the numbers in the rows of another user are. -/
theorem fault_of_earlier_object_is_reported :
    ∃ (s s' : Store) (total price : AttributeRow), s.Reachable ∧ s.attributes.rows.head? = some total ∧
      total.id < price.id ∧ price.objectId < total.objectId ∧ total.Unreadable ∧
      s.FirstUnreadable 3 price ∧
      s.generate 7 3 = .error (.inconsistent ⟨.attr, price.id, .unknownType price.typeCode⟩) ∧
      s.projects.rows.map ProjectRow.languageCode = [1, 9] ∧
      s'.projects.rows.map ProjectRow.languageCode = [1, 1] ∧
      s'.generate 7 3 = s.generate 7 3 ∧
      ∀ config t, (s.compileOn config 7 3 t).2 = t := by
  let total : AttributeRow := ⟨2, 4, 7, "total", 0, true, none⟩
  let price : AttributeRow := ⟨9, 1, 7, "price", 42, true, none⟩
  let shop : ProjectRow := ⟨3, "Shop", 7, 1, .epoch⟩
  let objects : Table Object := ⟨[⟨1, "Item", 3, 7, .epoch⟩, ⟨2, "Sale", 4, 8, .epoch⟩,
    ⟨4, "Order", 3, 7, .epoch⟩], by decide⟩
  -- the number of the language of the other project, and of the type of its attribute
  let withOther (language type : UInt8) : Store :=
    ⟨⟨[shop, ⟨4, "Till", 8, language, .epoch⟩], by simp [shop, Numbered.number]⟩, objects,
      ⟨[total, ⟨5, 2, 8, "sum", type, true, none⟩, price], by simp [total, price, Numbered.number]⟩,
      .empty⟩
  let s := withOther 9 99
  have hs : s.Reachable := reachable_of_isOk (by decide +kernel)
  have hfails : s.generate 7 3 = .error (.inconsistent ⟨.attr, 9, .unknownType 42⟩) := by
    decide +kernel
  obtain ⟨-, hown, hothers, hcompile⟩ := generating_reports_first_fault hs 7 3
  have hfirst : s.FirstUnreadable 3 price := by
    rcases (hown shop ⟨List.mem_cons_self, rfl, rfl⟩).2 rfl with ⟨a, hfirst, ha⟩ | ⟨-, g, hok, -⟩
    · have hsame := CompileError.inconsistent.inj (Except.error.inj (ha.symm.trans hfails))
      have hid : a.id = price.id := (CorruptRow.mk.inj hsame).2.1
      have hprice : price ∈ s.attributes.rows := by simp [s, withOther]
      rwa [Table.eq_of_number_eq hfirst.held.mem hprice hid] at hfirst
    · cases hok.symm.trans hfails
  have hproject (language type : UInt8) (row : ProjectRow) (hid : row.id = 3) :
      row ∈ (withOther language type).projects.rows ↔ row = shop := by
    refine ⟨fun hrow => ?_, fun hrow => hrow ▸ List.mem_cons_self⟩
    rcases List.mem_cons.mp hrow with rfl | hrow
    · rfl
    · rw [List.mem_singleton.mp hrow] at hid
      exact absurd (show (4 : UInt64) = 3 from hid) (by decide)
  have hheld (language type : UInt8) (row : AttributeRow) :
      (withOther language type).HoldsAttribute 3 row ↔ row = total ∨ row = price := by
    constructor
    · rintro ⟨hrow, o, ho, hproject, hobject⟩
      rcases List.mem_cons.mp hrow with rfl | hrow
      · exact .inl rfl
      rcases List.mem_cons.mp hrow with rfl | hrow
      · have hsale : ∀ o ∈ objects.rows, o.id = 2 → o.projectId ≠ 3 := by decide
        exact absurd hproject (hsale o ho hobject)
      · exact .inr (List.mem_singleton.mp hrow)
    · rintro (rfl | rfl)
      · refine ⟨by simp [withOther], ⟨4, "Order", 3, 7, .epoch⟩, ?_, rfl, rfl⟩
        simp [withOther, objects]
      · refine ⟨by simp [withOther], ⟨1, "Item", 3, 7, .epoch⟩, ?_, rfl, rfl⟩
        simp [withOther, objects]
  have hagree : AgreeOn 3 s (withOther 1 5) :=
    ⟨fun row hid => (hproject 1 5 row hid).trans (hproject 9 99 row hid).symm,
      fun _ _ => Iff.rfl, fun row => (hheld 1 5 row).trans (hheld 9 99 row).symm⟩
  refine ⟨s, withOther 1 5, total, price, hs, rfl, by decide, by decide,
    fun htype => absurd htype.1 (by decide), hfirst, hfails, rfl, rfl, hothers _ hagree,
    fun config t => ?_⟩
  rw [compileOn, (hcompile _ config t _ hfails).2]

end Store

end SchemaForge
