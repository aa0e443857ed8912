/-!
# Tables

A table holds rows by number, in ascending order of the numbers. The order is part of the type, so a
table has one form and two tables with the same rows are equal. New rows get the number after the
greatest one, so the order of the numbers is the order of creation.
-/

namespace SchemaForge

/-- Rows that carry their number. -/
class Numbered (α : Type) where
  number : α → UInt64

export Numbered (number)

/-- Rows in ascending order of their numbers. -/
structure Table (α : Type) [Numbered α] where
  rows : List α
  ascending : rows.Pairwise fun a b => number a < number b

namespace Table

variable {α : Type} [Numbered α]

/-- The table without rows. -/
def empty : Table α := ⟨[], .nil⟩

@[ext]
theorem ext {t u : Table α} (h : t.rows = u.rows) : t = u := by
  cases t; cases u; simp_all

/-- The row with this number. -/
def find? (t : Table α) (n : UInt64) : Option α := t.rows.find? fun row => number row == n

/-- The number after the greatest one; the first number is 1. -/
def nextNumber (t : Table α) : UInt64 :=
  match t.rows.getLast? with
  | some row => number row + 1
  | none => 1

/-- A row put where its number belongs, in the place of a row with that number. -/
def putRow (row : α) : List α → List α
  | [] => [row]
  | r :: rest =>
    if number row < number r then row :: r :: rest
    else if number row = number r then row :: rest
    else r :: putRow row rest

theorem mem_putRow {row x : α} {rows : List α} (h : x ∈ putRow row rows) : x = row ∨ x ∈ rows := by
  induction rows with
  | nil => simpa [putRow] using h
  | cons r rest ih =>
    simp only [putRow] at h
    split at h
    · simpa using h
    · split at h
      · simp only [List.mem_cons] at h ⊢
        exact h.imp id Or.inr
      · simp only [List.mem_cons] at h ⊢
        rcases h with h | h
        · exact .inr (.inl h)
        · exact (ih h).imp id Or.inr

theorem ascending_putRow {row : α} {rows : List α}
    (h : rows.Pairwise fun a b => number a < number b) :
    (putRow row rows).Pairwise fun a b => number a < number b := by
  induction rows with
  | nil => simp [putRow]
  | cons r rest ih =>
    obtain ⟨hr, hrest⟩ := List.pairwise_cons.1 h
    simp only [putRow]
    split
    · next lt =>
      refine List.pairwise_cons.2 ⟨fun x hx => ?_, h⟩
      rcases List.mem_cons.1 hx with rfl | hx
      · exact lt
      · exact UInt64.lt_trans lt (hr x hx)
    · next nlt =>
      split
      · next eq => exact List.pairwise_cons.2 ⟨fun x hx => eq ▸ hr x hx, hrest⟩
      · next ne =>
        refine List.pairwise_cons.2 ⟨fun x hx => ?_, ih hrest⟩
        rcases mem_putRow hx with rfl | hx
        · exact UInt64.lt_of_le_of_ne (UInt64.not_lt.1 nlt) fun e => ne e.symm
        · exact hr x hx

/-- The table with one more row, which takes the place of the row that has its number. -/
def insert (t : Table α) (row : α) : Table α := ⟨putRow row t.rows, ascending_putRow t.ascending⟩

/-- The rows of which `keep` says so. -/
def filter (t : Table α) (keep : α → Bool) : Table α :=
  ⟨t.rows.filter keep, t.ascending.filter keep⟩

/-- The table without the row of this number. -/
def erase (t : Table α) (n : UInt64) : Table α := t.filter fun row => number row != n

@[simp]
theorem rows_empty : (empty : Table α).rows = [] := rfl

@[simp]
theorem rows_filter (t : Table α) (keep : α → Bool) :
    (t.filter keep).rows = t.rows.filter keep := rfl

@[simp]
theorem rows_insert (t : Table α) (row : α) : (t.insert row).rows = putRow row t.rows := rfl

end Table

end SchemaForge
