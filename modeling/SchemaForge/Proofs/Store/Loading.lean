import Mathlib.Data.List.Nodup
import Mathlib.Data.List.Pairwise
import SchemaForge.Proofs.Store.Consistency
import SchemaForge.Store.Loading

/-!
# Which rows are loaded

Rows are loaded one by one, and each is compared with those before it. What comes out of it does not
depend on the order: `ofSnapshot_eq_ok_iff` says that rows are loaded exactly if they are consistent,
and that the tables of the store are made of them.
-/

namespace SchemaForge

/-! ### Tables made of rows -/

namespace Table

variable {α : Type} [Numbered α]

/-- The table of the rows. -/
def ofRows (rows : List α) : Table α := rows.foldl insert empty

/-- Rows by number. -/
def sortRows (rows : List α) : List α :=
  rows.mergeSort fun a b => decide (number a ≤ number b)

theorem sortRows_of_ascending {rows : List α}
    (h : rows.Pairwise fun a b => number a < number b) : sortRows rows = rows := by
  apply List.mergeSort_of_pairwise
  apply h.imp
  intro a b hab
  exact decide_eq_true (UInt64.le_of_lt hab)

theorem ascending_sortRows {rows : List α} (h : (rows.map number).Nodup) :
    (sortRows rows).Pairwise fun a b => number a < number b := by
  have hsorted : (sortRows rows).Pairwise fun a b => decide (number a ≤ number b) = true := by
    apply List.pairwise_mergeSort
    · intro a b c hab hbc
      exact decide_eq_true (UInt64.le_trans (of_decide_eq_true hab) (of_decide_eq_true hbc))
    · intro a b
      simpa using UInt64.le_total (number a) (number b)
  have hnodup : ((sortRows rows).map number).Nodup :=
    ((List.mergeSort_perm rows _).map number).nodup_iff.mpr h
  refine (hsorted.and (List.pairwise_map.mp hnodup)).imp ?_
  rintro a b ⟨hle, hne⟩
  exact UInt64.lt_of_le_of_ne (of_decide_eq_true hle) hne

/-- A row under a new number is one more row. -/
theorem perm_insert {t : Table α} {row : α} (h : ∀ r ∈ t.rows, number r ≠ number row) :
    (t.insert row).rows.Perm (row :: t.rows) := by
  have hput : ∀ rows : List α, (∀ r ∈ rows, number r ≠ number row) →
      (putRow row rows).Perm (row :: rows) := by
    intro rows
    induction rows with
    | nil => intro _; exact .refl _
    | cons r rest ih =>
      intro hall
      obtain ⟨hr, hrest⟩ := List.forall_mem_cons.mp hall
      rw [putRow]
      split
      · exact .refl _
      · rw [if_neg (Ne.symm hr)]
        exact ((ih hrest).cons r).trans (.swap row r rest)
  exact hput t.rows h

theorem perm_foldl_insert {rows : List α} {t : Table α} (h : (rows.map number).Nodup)
    (hfresh : ∀ r ∈ t.rows, ∀ row ∈ rows, number r ≠ number row) :
    (rows.foldl insert t).rows.Perm (rows ++ t.rows) := by
  induction rows generalizing t with
  | nil => exact .refl _
  | cons row rest ih =>
    obtain ⟨hrow, hrest⟩ := List.nodup_cons.mp h
    have hinsert : (t.insert row).rows.Perm (row :: t.rows) :=
      perm_insert fun r hr => hfresh r hr row List.mem_cons_self
    have hmore : (rest.foldl insert (t.insert row)).rows.Perm (rest ++ (t.insert row).rows) := by
      apply ih hrest
      intro r hr other hother
      rcases List.mem_cons.mp (hinsert.mem_iff.mp hr) with rfl | hr
      · exact fun heq => hrow (heq ▸ List.mem_map_of_mem hother)
      · exact hfresh r hr other (List.mem_cons_of_mem _ hother)
    exact hmore.trans ((hinsert.append_left rest).trans List.perm_middle)

/-- The rows of a table made of rows with different numbers are these rows by number. -/
theorem rows_ofRows {rows : List α} (h : (rows.map number).Nodup) :
    (ofRows rows).rows = sortRows rows := by
  have hperm : (ofRows rows).rows.Perm (rows ++ []) := perm_foldl_insert h nofun
  rw [List.append_nil] at hperm
  exact eq_of_perm_of_ascending (hperm.trans (List.mergeSort_perm rows _).symm)
    (ofRows rows).ascending (ascending_sortRows h)

theorem mem_ofRows_iff {rows : List α} (h : (rows.map number).Nodup) {row : α} :
    row ∈ (ofRows rows).rows ↔ row ∈ rows := by
  rw [rows_ofRows h, sortRows, List.mem_mergeSort]

theorem ofRows_rows (t : Table α) : ofRows t.rows = t := by
  apply Table.ext
  rw [rows_ofRows t.nodup_numbers, sortRows_of_ascending t.ascending]

theorem ofRows_eq_of_perm {rows rows' : List α} (h : (rows.map number).Nodup)
    (hperm : rows.Perm rows') : ofRows rows = ofRows rows' := by
  have h' : (rows'.map number).Nodup := (hperm.map number).nodup_iff.mp h
  have hsort : ∀ rows : List α, (sortRows rows).Perm rows := fun rows => List.mergeSort_perm rows _
  apply Table.ext
  rw [rows_ofRows h, rows_ofRows h']
  exact eq_of_perm_of_ascending ((hsort rows).trans (hperm.trans (hsort rows').symm))
    (ascending_sortRows h) (ascending_sortRows h')

end Table

/-- No two rows share their number or clash, whichever comes first. -/
theorem pairwise_apart_iff [Numbered α] {clash : α → α → Prop}
    (hsymm : ∀ a b, clash a b → clash b a) {rows : List α} :
    rows.Pairwise (fun a b => ¬clash a b ∧ number a ≠ number b) ↔
      (rows.map number).Nodup ∧ Unique clash rows := by
  rw [List.pairwise_and_iff, List.Nodup, List.pairwise_map, and_comm]
  apply and_congr_right
  intro hnumbers
  have hnodup : rows.Nodup := hnumbers.imp fun hne heq => hne (congrArg number heq)
  constructor
  · intro hclash a ha b hb hab
    by_contra hne
    have : Std.Symm fun a b => ¬clash a b := ⟨fun a b h hba => h (hsymm b a hba)⟩
    exact hclash.forall ha hb hne hab
  · intro hunique
    apply hnodup.pairwise_of_forall_ne
    intro a ha b hb hne hab
    exact hne (hunique a ha b hb hab)

/-! ### Rows in another order -/

namespace Snapshot

/-- The same rows in each table, in whatever order. -/
structure Perm (r r' : Snapshot) : Prop where
  projects : r.projects.Perm r'.projects
  objects : r.objects.Perm r'.objects
  attributes : r.attributes.Perm r'.attributes
  actions : r.actions.Perm r'.actions

/-- The rows of each table by number. -/
def sorted (r : Snapshot) : Snapshot :=
  ⟨Table.sortRows r.projects, Table.sortRows r.objects, Table.sortRows r.attributes,
    Table.sortRows r.actions⟩

variable {r r' : Snapshot}

theorem Perm.symm (h : r.Perm r') : r'.Perm r :=
  ⟨h.projects.symm, h.objects.symm, h.attributes.symm, h.actions.symm⟩

theorem perm_sorted (r : Snapshot) : r.Perm r.sorted :=
  ⟨(List.mergeSort_perm ..).symm, (List.mergeSort_perm ..).symm, (List.mergeSort_perm ..).symm,
    (List.mergeSort_perm ..).symm⟩

/-- Whether rows are consistent does not depend on their order. -/
theorem Consistent.of_perm (h : r.Consistent) (hp : r.Perm r') : r'.Consistent := by
  have housed : ∀ {α β : Type} {owns : α → β → Prop} {ps ps' : List α} {cs cs' : List β},
      Housed owns ps cs → ps.Perm ps' → cs.Perm cs' → Housed owns ps' cs' := by
    intro α β owns ps ps' cs cs' h hps hcs c hc
    obtain ⟨p, hp, hown⟩ := h c (hcs.mem_iff.mpr hc)
    exact ⟨p, hps.mem_iff.mp hp, hown⟩
  constructor
  · exact (hp.projects.map _).nodup_iff.mp h.project_ids
  · exact fun p hmem => h.project_named p (hp.projects.mem_iff.mpr hmem)
  · exact h.project_unique.of_subset fun p hmem => hp.projects.mem_iff.mpr hmem
  · exact (hp.objects.map _).nodup_iff.mp h.object_ids
  · exact housed h.object_housed hp.projects hp.objects
  · exact fun o hmem => h.object_named o (hp.objects.mem_iff.mpr hmem)
  · exact h.object_unique.of_subset fun o hmem => hp.objects.mem_iff.mpr hmem
  · exact (hp.attributes.map _).nodup_iff.mp h.attribute_ids
  · exact housed h.attribute_housed hp.objects hp.attributes
  · exact fun a hmem => h.attribute_named a (hp.attributes.mem_iff.mpr hmem)
  · exact h.attribute_unique.of_subset fun a hmem => hp.attributes.mem_iff.mpr hmem
  · exact (hp.actions.map _).nodup_iff.mp h.action_ids
  · exact housed h.action_housed hp.objects hp.actions
  · exact fun a hmem => h.action_named a (hp.actions.mem_iff.mpr hmem)
  · exact h.action_unique.of_subset fun a hmem => hp.actions.mem_iff.mpr hmem

end Snapshot

namespace Store

/-! ### One row -/

theorem insertNew_eq_ok_iff [Numbered α] {entity : Entity} {t t' : Table α} {row : α} :
    insertNew entity t row = .ok t' ↔
      (∀ r ∈ t.rows, number r ≠ number row) ∧ t' = t.insert row := by
  rw [insertNew, ← Table.find?_eq_none_iff]
  cases t.find? (number row) with
  | none => simp [eq_comm]
  | some r => simp

variable {s s' : Store}

theorem demandObject_eq_ok_iff {owner : UserId} {id : ObjectId} :
    s.demandObject owner id = .ok () ↔ ∃ o ∈ s.objects.rows, o.id = id ∧ o.owner = owner := by
  unfold demandObject
  cases hf : s.objects.find? id with
  | none =>
    have hnone := Table.find?_eq_none_iff.mp hf
    simp only [reduceCtorEq, false_iff]
    rintro ⟨o, ho, hid, _⟩
    exact hnone o ho hid
  | some o =>
    obtain ⟨ho, hid⟩ := Table.find?_eq_some_iff.mp hf
    by_cases howner : o.owner = owner
    · simp only [howner, if_true, true_iff]
      exact ⟨o, ho, hid, howner⟩
    · simp only [howner, if_false, reduceCtorEq, false_iff]
      rintro ⟨o', ho', hid', howner'⟩
      have hsame : o' = o := Table.eq_of_number_eq ho' ho (hid'.trans hid.symm)
      exact howner (hsame ▸ howner')

/-- The user has a project of this number exactly if there is a row that says so. -/
theorem exists_project_iff {owner : UserId} {id : ProjectId} :
    (∃ row, s.project owner id = .ok row) ↔
      ∃ p ∈ s.projects.rows, p.id = id ∧ p.owner = owner := by
  constructor
  · rintro ⟨row, hrow⟩
    exact ⟨row, mem_of_project_eq_ok hrow⟩
  · rintro ⟨p, hp, hid, howner⟩
    exact ⟨p, project_eq_ok_iff.mpr ⟨Table.find?_eq_some_iff.mpr ⟨hp, hid⟩, howner⟩⟩

/-- What the last steps of loading a row come to: it is not taken, and its number is new. -/
theorem loaded_eq_ok_iff [Numbered α] {entity : Entity} {t : Table α} {row : α}
    {f : Table α → Store} {clash : α → α → Prop} {taken : Bool}
    (htaken : taken = false ↔ ∀ r ∈ t.rows, ¬clash r row) :
    (do refuseTaken entity taken; return f (← insertNew entity t row)) = Except.ok s' ↔
      (∀ r ∈ t.rows, ¬clash r row ∧ number r ≠ number row) ∧ s' = f (t.insert row) := by
  rw [check_bind_eq_ok_iff, refuseTaken_eq_ok_iff, htaken, bind_eq_ok_iff, forall₂_and, and_assoc]
  apply and_congr_right
  intro _
  constructor
  · rintro ⟨t', ht, h⟩
    obtain ⟨hfresh, rfl⟩ := insertNew_eq_ok_iff.mp ht
    exact ⟨hfresh, (Except.ok.inj h).symm⟩
  · rintro ⟨hfresh, rfl⟩
    exact ⟨_, insertNew_eq_ok_iff.mpr ⟨hfresh, rfl⟩, rfl⟩

theorem loadProject_eq_ok_iff {row : ProjectRow} :
    s.loadProject row = .ok s' ↔
      Naming.checkProjectName row.name = .ok () ∧
        (∀ r ∈ s.projects.rows, ¬r.Clash row ∧ number r ≠ number row) ∧
        s' = { s with projects := s.projects.insert row } := by
  rw [loadProject, check_bind_eq_ok_iff, demand_eq_ok_iff]
  apply and_congr_right
  intro _
  apply loaded_eq_ok_iff
  rw [projectNameTaken_eq_false_iff]
  exact forall₂_congr fun r _ => forall_prop_of_true nofun

theorem loadObject_eq_ok_iff {row : Object} :
    s.loadObject row = .ok s' ↔
      ((∃ p ∈ s.projects.rows, p.Owns row) ∧ Naming.checkObjectName row.name = .ok ()) ∧
        (∀ r ∈ s.objects.rows, ¬r.Clash row ∧ number r ≠ number row) ∧
        s' = { s with objects := s.objects.insert row } := by
  have hparent : (∃ p, s.project row.owner row.projectId = .ok p) ↔
      ∃ p ∈ s.projects.rows, p.Owns row := exists_project_iff
  rw [loadObject, bind_eq_ok_iff, exists_and_right, hparent, and_assoc, check_bind_eq_ok_iff,
    demand_eq_ok_iff]
  apply and_congr_right
  intro _
  apply and_congr_right
  intro _
  exact loaded_eq_ok_iff objectNameTaken_eq_false_iff

theorem loadAttribute_eq_ok_iff {row : AttributeRow} :
    s.loadAttribute row = .ok s' ↔
      ((∃ o ∈ s.objects.rows, o.OwnsAttribute row) ∧
          Naming.checkAttributeName row.name = .ok ()) ∧
        (∀ r ∈ s.attributes.rows, ¬r.Clash row ∧ number r ≠ number row) ∧
        s' = { s with attributes := s.attributes.insert row } := by
  rw [loadAttribute, check_bind_eq_ok_iff, demandObject_eq_ok_iff, and_assoc,
    check_bind_eq_ok_iff, demand_eq_ok_iff]
  apply and_congr_right
  intro _
  apply and_congr_right
  intro _
  exact loaded_eq_ok_iff attributeNameTaken_eq_false_iff

theorem loadAction_eq_ok_iff {row : ActionRow} :
    s.loadAction row = .ok s' ↔
      ((∃ o ∈ s.objects.rows, o.OwnsAction row) ∧
          Naming.checkActionIdentifier row.action.identifier = .ok ()) ∧
        (∀ r ∈ s.actions.rows, ¬r.Clash row ∧ number r ≠ number row) ∧
        s' = { s with actions := s.actions.insert row } := by
  rw [loadAction, check_bind_eq_ok_iff, demandObject_eq_ok_iff, and_assoc,
    check_bind_eq_ok_iff, demand_eq_ok_iff]
  apply and_congr_right
  intro _
  apply and_congr_right
  intro _
  exact loaded_eq_ok_iff actionTaken_eq_false_iff

/-! ### All rows of a table -/

/-- Each row is compared with those that are there and with those loaded before it; together that
means that no two rows of the table clash or share their number. -/
theorem loadAll_eq_ok_iff [Numbered ρ] {load : Store → ρ → Except StoreError Store}
    {f : Table ρ → Store} {fits : ρ → Prop} {clash : ρ → ρ → Prop}
    (hload : ∀ t row s', load (f t) row = .ok s' ↔
      fits row ∧ (∀ r ∈ t.rows, ¬clash r row ∧ number r ≠ number row) ∧ s' = f (t.insert row))
    (rows : List ρ) (t : Table ρ) (s' : Store) :
    loadAll load (f t) rows = .ok s' ↔
      (∀ row ∈ rows, fits row) ∧
        rows.Pairwise (fun a b => ¬clash a b ∧ number a ≠ number b) ∧
        (∀ r ∈ t.rows, ∀ row ∈ rows, ¬clash r row ∧ number r ≠ number row) ∧
        s' = f (rows.foldl Table.insert t) := by
  induction rows generalizing t with
  | nil => simp [loadAll, eq_comm]
  | cons row rest ih =>
    rw [loadAll, bind_eq_ok_iff, List.forall_mem_cons, List.pairwise_cons, List.foldl_cons]
    constructor
    · rintro ⟨s₁, hrow, hrest⟩
      obtain ⟨hfits, hapart, rfl⟩ := (hload _ _ _).mp hrow
      obtain ⟨hrestFits, hpairs, hold, rfl⟩ := (ih _).mp hrest
      have hnew : row ∈ (t.insert row).rows := Table.mem_insert_iff.mpr (.inl rfl)
      refine ⟨⟨hfits, hrestFits⟩, ⟨hold row hnew, hpairs⟩, fun r hr other hother => ?_, rfl⟩
      rcases List.mem_cons.mp hother with rfl | hother
      · exact hapart r hr
      · exact hold r (Table.mem_insert_iff.mpr (.inr ⟨hr, (hapart r hr).2⟩)) other hother
    · rintro ⟨⟨hfits, hrestFits⟩, ⟨hrow, hpairs⟩, hold, rfl⟩
      refine ⟨_, (hload _ _ _).mpr ⟨hfits, fun r hr => hold r hr row List.mem_cons_self, rfl⟩, ?_⟩
      refine (ih _).mpr ⟨hrestFits, hpairs, fun r hr other hother => ?_, rfl⟩
      rcases Table.mem_insert_iff.mp hr with rfl | ⟨hr, _⟩
      · exact hrow other hother
      · exact hold r hr other (List.mem_cons_of_mem _ hother)

/-- The same for a table that has no rows yet. -/
theorem loadAll_empty_eq_ok_iff [Numbered ρ] {load : Store → ρ → Except StoreError Store}
    {f : Table ρ → Store} {fits : ρ → Prop} {clash : ρ → ρ → Prop}
    (hsymm : ∀ a b, clash a b → clash b a)
    (hload : ∀ t row s', load (f t) row = .ok s' ↔
      fits row ∧ (∀ r ∈ t.rows, ¬clash r row ∧ number r ≠ number row) ∧ s' = f (t.insert row))
    {rows : List ρ} {s' : Store} :
    loadAll load (f .empty) rows = .ok s' ↔
      (∀ row ∈ rows, fits row) ∧ (rows.map number).Nodup ∧ Unique clash rows ∧
        s' = f (.ofRows rows) := by
  rw [loadAll_eq_ok_iff hload, pairwise_apart_iff hsymm, and_assoc]
  simp only [Table.rows_empty, List.not_mem_nil, false_imp_iff, implies_true, true_and]
  rfl

/-! ### All tables -/

/-- The store of the rows. -/
def ofRows (r : Snapshot) : Store :=
  ⟨.ofRows r.projects, .ofRows r.objects, .ofRows r.attributes, .ofRows r.actions⟩

theorem ofRows_snapshot (s : Store) : ofRows s.snapshot = s := by
  simp only [ofRows, snapshot, Table.ofRows_rows]

section Tables

variable {projects : Table ProjectRow} {objects : Table Object} {attributes : Table AttributeRow}

theorem loadProjects_eq_ok_iff {rows : List ProjectRow} :
    loadAll loadProject empty rows = .ok s ↔
      (∀ row ∈ rows, Naming.checkProjectName row.name = .ok ()) ∧ (rows.map number).Nodup ∧
        Unique ProjectRow.Clash rows ∧ s = ⟨.ofRows rows, .empty, .empty, .empty⟩ :=
  loadAll_empty_eq_ok_iff (f := fun t => ⟨t, .empty, .empty, .empty⟩)
    (fun _ _ => ProjectRow.Clash.symm) (fun _ _ _ => loadProject_eq_ok_iff)

theorem loadObjects_eq_ok_iff {rows : List Object} :
    loadAll loadObject ⟨projects, .empty, .empty, .empty⟩ rows = .ok s ↔
      (∀ row ∈ rows, (∃ p ∈ projects.rows, p.Owns row) ∧
          Naming.checkObjectName row.name = .ok ()) ∧ (rows.map number).Nodup ∧
        Unique Object.Clash rows ∧ s = ⟨projects, .ofRows rows, .empty, .empty⟩ :=
  loadAll_empty_eq_ok_iff (f := fun t => ⟨projects, t, .empty, .empty⟩)
    (fun _ _ => Object.Clash.symm) (fun _ _ _ => loadObject_eq_ok_iff)

theorem loadAttributes_eq_ok_iff {rows : List AttributeRow} :
    loadAll loadAttribute ⟨projects, objects, .empty, .empty⟩ rows = .ok s ↔
      (∀ row ∈ rows, (∃ o ∈ objects.rows, o.OwnsAttribute row) ∧
          Naming.checkAttributeName row.name = .ok ()) ∧ (rows.map number).Nodup ∧
        Unique AttributeRow.Clash rows ∧ s = ⟨projects, objects, .ofRows rows, .empty⟩ :=
  loadAll_empty_eq_ok_iff (f := fun t => ⟨projects, objects, t, .empty⟩)
    (fun _ _ => AttributeRow.Clash.symm) (fun _ _ _ => loadAttribute_eq_ok_iff)

theorem loadActions_eq_ok_iff {rows : List ActionRow} :
    loadAll loadAction ⟨projects, objects, attributes, .empty⟩ rows = .ok s ↔
      (∀ row ∈ rows, (∃ o ∈ objects.rows, o.OwnsAction row) ∧
          Naming.checkActionIdentifier row.action.identifier = .ok ()) ∧
        (rows.map number).Nodup ∧ Unique ActionRow.Clash rows ∧
        s = ⟨projects, objects, attributes, .ofRows rows⟩ :=
  loadAll_empty_eq_ok_iff (f := fun t => ⟨projects, objects, attributes, t⟩)
    (fun _ _ => ActionRow.Clash.symm) (fun _ _ _ => loadAction_eq_ok_iff)

end Tables

/-- Rows are loaded exactly if they are consistent. -/
theorem ofSnapshot_eq_ok_iff {r : Snapshot} :
    ofSnapshot r = .ok s ↔ r.Consistent ∧ s = ofRows r := by
  constructor
  · intro h
    obtain ⟨s₁, h₁, h⟩ := bind_eq_ok_iff.mp h
    obtain ⟨s₂, h₂, h⟩ := bind_eq_ok_iff.mp h
    obtain ⟨s₃, h₃, h₄⟩ := bind_eq_ok_iff.mp h
    obtain ⟨hpnamed, hpids, hpunique, rfl⟩ := loadProjects_eq_ok_iff.mp h₁
    obtain ⟨hofits, hoids, hounique, rfl⟩ := loadObjects_eq_ok_iff.mp h₂
    obtain ⟨htfits, htids, htunique, rfl⟩ := loadAttributes_eq_ok_iff.mp h₃
    obtain ⟨hafits, haids, haunique, rfl⟩ := loadActions_eq_ok_iff.mp h₄
    -- each table was compared with those loaded before it, which hold just the rows listed
    simp only [Table.mem_ofRows_iff hpids] at hofits
    simp only [Table.mem_ofRows_iff hoids] at htfits hafits
    exact ⟨{
      project_ids := hpids, project_named := hpnamed, project_unique := hpunique
      object_ids := hoids, object_housed := fun o ho => (hofits o ho).1
      object_named := fun o ho => (hofits o ho).2, object_unique := hounique
      attribute_ids := htids, attribute_housed := fun a ha => (htfits a ha).1
      attribute_named := fun a ha => (htfits a ha).2, attribute_unique := htunique
      action_ids := haids, action_housed := fun a ha => (hafits a ha).1
      action_named := fun a ha => (hafits a ha).2, action_unique := haunique }, rfl⟩
  · rintro ⟨h, rfl⟩
    refine bind_eq_ok_iff.mpr ⟨_, loadProjects_eq_ok_iff.mpr
      ⟨h.project_named, h.project_ids, h.project_unique, rfl⟩, ?_⟩
    refine bind_eq_ok_iff.mpr ⟨_, loadObjects_eq_ok_iff.mpr
      ⟨fun o ho => ⟨?_, h.object_named o ho⟩, h.object_ids, h.object_unique, rfl⟩, ?_⟩
    · simp only [Table.mem_ofRows_iff h.project_ids]
      exact h.object_housed o ho
    refine bind_eq_ok_iff.mpr ⟨_, loadAttributes_eq_ok_iff.mpr
      ⟨fun a ha => ⟨?_, h.attribute_named a ha⟩, h.attribute_ids, h.attribute_unique, rfl⟩, ?_⟩
    · simp only [Table.mem_ofRows_iff h.object_ids]
      exact h.attribute_housed a ha
    refine loadActions_eq_ok_iff.mpr
      ⟨fun a ha => ⟨?_, h.action_named a ha⟩, h.action_ids, h.action_unique, rfl⟩
    simp only [Table.mem_ofRows_iff h.object_ids]
    exact h.action_housed a ha

/-- The rows of a store are those that it is made of, by number. -/
theorem snapshot_ofRows {r : Snapshot} (h : r.Consistent) : (ofRows r).snapshot = r.sorted := by
  simp only [ofRows, snapshot, Snapshot.sorted]
  rw [Table.rows_ofRows h.project_ids, Table.rows_ofRows h.object_ids,
    Table.rows_ofRows h.attribute_ids, Table.rows_ofRows h.action_ids]

/-- A store does not depend on the order of the rows that it is made of. -/
theorem ofRows_eq_of_perm {r r' : Snapshot} (h : r.Consistent) (hp : r.Perm r') :
    ofRows r = ofRows r' := by
  simp only [ofRows]
  rw [Table.ofRows_eq_of_perm h.project_ids hp.projects,
    Table.ofRows_eq_of_perm h.object_ids hp.objects,
    Table.ofRows_eq_of_perm h.attribute_ids hp.attributes,
    Table.ofRows_eq_of_perm h.action_ids hp.actions]

/-- The rows of a store that is loaded are consistent. -/
theorem consistent_ofSnapshot {r : Snapshot} (h : ofSnapshot r = .ok s) : s.Consistent := by
  obtain ⟨hrows, rfl⟩ := ofSnapshot_eq_ok_iff.mp h
  rw [Consistent, snapshot_ofRows hrows]
  exact hrows.of_perm r.perm_sorted

end Store

end SchemaForge
