import Mathlib.Data.List.Nodup
import SchemaForge.Store.Table

/-!
# Rows of tables

A table is read by number and by membership, and the order of its rows makes the two agree:
`find?_eq_some_iff` says that a number finds exactly the row that carries it. Each operation on
tables then has one lemma on the rows it leaves, and new rows get a number that no row has, as long
as the numbers have not run out.
-/

namespace SchemaForge.Table

variable {α : Type} [Numbered α]

/-! ### Ascending order -/

section Ascending

variable {β : Type} {f : β → UInt64} {xs ys : List β}

theorem nodup_of_ascending (h : xs.Pairwise fun a b => f a < f b) : xs.Nodup := by
  apply h.imp
  rintro a b hlt rfl
  exact UInt64.lt_irrefl _ hlt

/-- Lists in ascending order are equal if they have the same members. -/
theorem eq_of_perm_of_ascending (hperm : xs.Perm ys) (hx : xs.Pairwise fun a b => f a < f b)
    (hy : ys.Pairwise fun a b => f a < f b) : xs = ys := by
  refine hperm.eq_of_pairwise ?_ hx hy
  intro a b _ _ hab hba
  exact absurd hba (UInt64.lt_asymm hab)

theorem eq_of_mem_iff_of_ascending (h : ∀ a, a ∈ xs ↔ a ∈ ys)
    (hx : xs.Pairwise fun a b => f a < f b) (hy : ys.Pairwise fun a b => f a < f b) : xs = ys :=
  eq_of_perm_of_ascending
    ((List.perm_ext_iff_of_nodup (nodup_of_ascending hx) (nodup_of_ascending hy)).mpr h) hx hy

end Ascending

/-- No number stands for two rows. -/
theorem nodup_numbers (t : Table α) : (t.rows.map number).Nodup := by
  have hnumbers : (t.rows.map number).Pairwise (· < ·) := List.pairwise_map.mpr t.ascending
  exact nodup_of_ascending hnumbers

/-! ### Finding rows -/

/-- Two rows of one number are the same row. -/
theorem eq_of_number_eq {t : Table α} {a b : α} (ha : a ∈ t.rows) (hb : b ∈ t.rows)
    (h : number a = number b) : a = b :=
  List.inj_on_of_nodup_map t.nodup_numbers ha hb h

theorem find?_eq_some_iff {t : Table α} {n : UInt64} {row : α} :
    t.find? n = some row ↔ row ∈ t.rows ∧ number row = n := by
  constructor
  · intro h
    exact ⟨List.mem_of_find?_eq_some h, by simpa using List.find?_some h⟩
  · rintro ⟨hmem, rfl⟩
    cases hf : t.find? (number row) with
    | none =>
      have := List.find?_eq_none.mp hf row hmem
      simp at this
    | some other =>
      have hother : number other = number row := by simpa using List.find?_some hf
      rw [eq_of_number_eq (List.mem_of_find?_eq_some hf) hmem hother]

theorem find?_eq_none_iff {t : Table α} {n : UInt64} :
    t.find? n = none ↔ ∀ row ∈ t.rows, number row ≠ n := by
  simp [find?]

/-- Every row is found under its number. -/
theorem find?_number {t : Table α} {row : α} (h : row ∈ t.rows) : t.find? (number row) = some row :=
  find?_eq_some_iff.mpr ⟨h, rfl⟩

/-! ### Rows after an operation -/

theorem number_ne_of_lt {row : α} {rows : List α} (h : ∀ y ∈ rows, number row < number y) :
    ∀ y ∈ rows, number y ≠ number row :=
  fun y hy heq => UInt64.lt_irrefl _ (heq ▸ h y hy)

theorem mem_putRow_iff {row x : α} {rows : List α}
    (h : rows.Pairwise fun a b => number a < number b) :
    x ∈ putRow row rows ↔ x = row ∨ (x ∈ rows ∧ number x ≠ number row) := by
  induction rows with
  | nil => simp [putRow]
  | cons r rest ih =>
    obtain ⟨hr, hrest⟩ := List.pairwise_cons.mp h
    simp only [putRow]
    split
    · next lt =>
      -- The row goes before all others, so none of them has its number.
      have hgreater : ∀ y ∈ r :: rest, number row < number y :=
        List.forall_mem_cons.mpr ⟨lt, fun y hy => UInt64.lt_trans lt (hr y hy)⟩
      rw [List.mem_cons]
      exact or_congr_right (and_iff_left_of_imp (number_ne_of_lt hgreater x)).symm
    · split
      · next eq =>
        have hgreater : ∀ y ∈ rest, number row < number y := fun y hy => eq ▸ hr y hy
        rw [List.mem_cons, List.mem_cons]
        constructor
        · rintro (rfl | hx)
          · exact .inl rfl
          · exact .inr ⟨.inr hx, number_ne_of_lt hgreater x hx⟩
        · rintro (rfl | ⟨rfl | hx, hxne⟩)
          · exact .inl rfl
          · exact absurd eq.symm hxne
          · exact .inr hx
      · next ne =>
        rw [List.mem_cons, ih hrest, List.mem_cons]
        constructor
        · rintro (rfl | rfl | ⟨hx, hxne⟩)
          · exact .inr ⟨.inl rfl, fun heq => ne heq.symm⟩
          · exact .inl rfl
          · exact .inr ⟨.inr hx, hxne⟩
        · rintro (rfl | ⟨rfl | hx, hxne⟩)
          · exact .inr (.inl rfl)
          · exact .inl rfl
          · exact .inr (.inr ⟨hx, hxne⟩)

theorem mem_insert_iff {t : Table α} {row x : α} :
    x ∈ (t.insert row).rows ↔ x = row ∨ (x ∈ t.rows ∧ number x ≠ number row) :=
  mem_putRow_iff t.ascending

theorem mem_filter_iff {t : Table α} {keep : α → Bool} {x : α} :
    x ∈ (t.filter keep).rows ↔ x ∈ t.rows ∧ keep x = true := by
  simp

theorem mem_erase_iff {t : Table α} {n : UInt64} {x : α} :
    x ∈ (t.erase n).rows ↔ x ∈ t.rows ∧ number x ≠ n := by
  simp [erase]

/-- Tables with the same rows are the same table. -/
theorem eq_of_mem_iff {t u : Table α} (h : ∀ row, row ∈ t.rows ↔ row ∈ u.rows) : t = u :=
  Table.ext (eq_of_mem_iff_of_ascending h t.ascending u.ascending)

/-- A row that is looked for among some rows is found if it is one of them. -/
theorem find?_filter (t : Table α) (keep : α → Bool) (n : UInt64) :
    (t.filter keep).find? n = (t.find? n).filter keep := by
  apply Option.ext
  intro row
  rw [Option.filter_eq_some_iff, find?_eq_some_iff, find?_eq_some_iff, mem_filter_iff]
  exact and_right_comm

/-- A row put into a table is not seen among others, and nor is the row whose place it takes. -/
theorem filter_insert {t : Table α} {row : α} {keep : α → Bool} (hrow : keep row = false)
    (hold : ∀ r ∈ t.rows, number r = number row → keep r = false) :
    (t.insert row).filter keep = t.filter keep := by
  apply eq_of_mem_iff
  intro r
  rw [mem_filter_iff, mem_filter_iff, mem_insert_iff]
  constructor
  · rintro ⟨rfl | ⟨hr, _⟩, hkeep⟩
    · rw [hrow] at hkeep
      cases hkeep
    · exact ⟨hr, hkeep⟩
  · rintro ⟨hr, hkeep⟩
    refine ⟨.inr ⟨hr, fun hn => ?_⟩, hkeep⟩
    rw [hold r hr hn] at hkeep
    cases hkeep

/-- Rows that are removed are not missed among others. -/
theorem filter_filter_of_imp {t : Table α} {keep stay : α → Bool}
    (h : ∀ r ∈ t.rows, keep r = true → stay r = true) :
    (t.filter stay).filter keep = t.filter keep := by
  apply eq_of_mem_iff
  intro r
  rw [mem_filter_iff, mem_filter_iff, mem_filter_iff]
  constructor
  · rintro ⟨⟨hr, _⟩, hkeep⟩
    exact ⟨hr, hkeep⟩
  · rintro ⟨hr, hkeep⟩
    exact ⟨⟨hr, h r hr hkeep⟩, hkeep⟩

/-- Rows that are looked for among some rows are found if they are all there. -/
theorem rows_filter_filter_of_imp {t : Table α} {keep stay : α → Bool}
    (h : ∀ r ∈ t.rows, keep r = true → stay r = true) :
    (t.filter stay).rows.filter keep = t.rows.filter keep :=
  congrArg rows (filter_filter_of_imp h)

/-- What is asked about some rows is asked about all if it holds of no others. -/
theorem any_filter_of_imp {t : Table α} {holds stay : α → Bool}
    (h : ∀ r ∈ t.rows, holds r = true → stay r = true) :
    (t.filter stay).rows.any holds = t.rows.any holds := by
  rw [Bool.eq_iff_iff, List.any_eq_true, List.any_eq_true]
  constructor
  · rintro ⟨r, hr, hholds⟩
    exact ⟨r, (mem_filter_iff.mp hr).1, hholds⟩
  · rintro ⟨r, hr, hholds⟩
    exact ⟨r, mem_filter_iff.mpr ⟨hr, h r hr hholds⟩, hholds⟩

/-- A row put in the place of itself changes nothing. -/
theorem insert_eq_self {t : Table α} {row : α} (h : row ∈ t.rows) : t.insert row = t := by
  have hput : ∀ rows : List α, (rows.Pairwise fun a b => number a < number b) →
      row ∈ rows → putRow row rows = rows := by
    intro rows hrows
    induction hrows with
    | nil => intro h; simp at h
    | @cons r rest hr _ ih =>
      intro h
      rcases List.mem_cons.mp h with rfl | h
      · simp [putRow]
      · have hlt : number r < number row := hr row h
        have hne : number row ≠ number r := fun heq => UInt64.lt_irrefl _ (heq ▸ hlt)
        rw [putRow, if_neg (UInt64.lt_asymm hlt), if_neg hne, ih h]
  exact Table.ext (hput t.rows t.ascending h)

/-! ### New numbers -/

/-- The greatest number in a table; an empty table has 0. -/
def greatest (t : Table α) : Nat :=
  match t.rows.getLast? with
  | some row => (number row).toNat
  | none => 0

/-- Are there numbers left for so many new rows? -/
def HasRoom (t : Table α) (count : Nat) : Prop := t.greatest + count < UInt64.size

instance (t : Table α) (count : Nat) : Decidable (t.HasRoom count) :=
  inferInstanceAs (Decidable (_ < _))

theorem number_le_greatest {t : Table α} {row : α} (h : row ∈ t.rows) :
    (number row).toNat ≤ t.greatest := by
  have hne : t.rows ≠ [] := List.ne_nil_of_mem h
  have hlast : t.rows.getLast? = some (t.rows.getLast hne) := List.getLast?_eq_some_getLast hne
  rw [greatest, hlast]
  show (number row).toNat ≤ (number (t.rows.getLast hne)).toNat
  have hsplit : t.rows.dropLast ++ [t.rows.getLast hne] = t.rows := List.dropLast_concat_getLast hne
  have hasc := t.ascending
  rw [← hsplit, List.pairwise_append] at hasc
  rw [← hsplit] at h
  rcases List.mem_append.mp h with h | h
  · exact Nat.le_of_lt (UInt64.lt_iff_toNat_lt.mp (hasc.2.2 row h _ (by simp)))
  · exact Nat.le_of_eq (congrArg (fun r => (number r).toNat) (List.mem_singleton.mp h))

theorem toNat_nextNumber {t : Table α} (h : t.HasRoom 1) : t.nextNumber.toNat = t.greatest + 1 := by
  unfold HasRoom greatest at h
  unfold nextNumber greatest
  cases hlast : t.rows.getLast? with
  | none => rfl
  | some row =>
    rw [hlast] at h
    show (number row + 1).toNat = (number row).toNat + 1
    rw [UInt64.toNat_add]
    exact Nat.mod_eq_of_lt h

/-- A new row gets a number that is greater than all numbers in the table. -/
theorem lt_nextNumber {t : Table α} (hroom : t.HasRoom 1) {row : α} (h : row ∈ t.rows) :
    number row < t.nextNumber := by
  rw [UInt64.lt_iff_toNat_lt, toNat_nextNumber hroom]
  exact Nat.lt_succ_of_le (number_le_greatest h)

theorem nextNumber_fresh {t : Table α} (hroom : t.HasRoom 1) {row : α} (h : row ∈ t.rows) :
    number row ≠ t.nextNumber := by
  intro heq
  exact UInt64.lt_irrefl _ (heq ▸ lt_nextNumber hroom h)

/-- A row that comes after all others is put at the end. -/
theorem rows_insert_of_lt {t : Table α} {row : α} (h : ∀ x ∈ t.rows, number x < number row) :
    (t.insert row).rows = t.rows ++ [row] := by
  have hput : ∀ rows : List α, (∀ x ∈ rows, number x < number row) →
      putRow row rows = rows ++ [row] := by
    intro rows
    induction rows with
    | nil => intro _; rfl
    | cons r rest ih =>
      intro hall
      have hr : number r < number row := hall r List.mem_cons_self
      have hne : number row ≠ number r := fun heq => UInt64.lt_irrefl _ (heq ▸ hr)
      rw [putRow, if_neg (UInt64.lt_asymm hr), if_neg hne,
        ih fun x hx => hall x (List.mem_cons_of_mem _ hx)]
      rfl
  exact hput t.rows h

/-- New rows are put at the end. -/
theorem rows_insert_new {t : Table α} (hroom : t.HasRoom 1) {row : α}
    (h : number row = t.nextNumber) : (t.insert row).rows = t.rows ++ [row] :=
  rows_insert_of_lt fun _ hx => h ▸ lt_nextNumber hroom hx

theorem greatest_insert_new {t : Table α} (hroom : t.HasRoom 1) {row : α}
    (h : number row = t.nextNumber) : (t.insert row).greatest = t.greatest + 1 := by
  rw [greatest, rows_insert_new hroom h, List.getLast?_concat]
  show (number row).toNat = _
  rw [h, toNat_nextNumber hroom]

theorem HasRoom.one {t : Table α} {n : Nat} (h : t.HasRoom (n + 1)) : t.HasRoom 1 := by
  unfold HasRoom at h ⊢
  omega

/-- Of the rows that there is room for, a new one takes the place of one. -/
theorem HasRoom.insert_new {t : Table α} {n : Nat} (h : t.HasRoom (n + 1)) {row : α}
    (hrow : number row = t.nextNumber) : (t.insert row).HasRoom n := by
  have hgreatest := greatest_insert_new h.one hrow
  unfold HasRoom at h ⊢
  omega

end SchemaForge.Table
