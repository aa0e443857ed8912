import SchemaForge.Instant.Text
import SchemaForge.Proofs.Except
import SchemaForge.Proofs.Text.Characters

/-!
# Instants are read as they are written

The text of an instant is read back as the instant, part by part: each part ends where the mark
behind it stands, and the offset from universal time is zero.
-/

namespace SchemaForge.Instant

/-- Are all characters decimal digits? -/
def Digits (cs : List Char) : Prop := ∀ c ∈ cs, c.isDigit

variable {cs ds rest : List Char} {c : Char} {n : Nat}

/-! ### Digits -/

theorem digits_padded (width n : Nat) : Digits (padded width n) := by
  intro c hc
  rcases List.mem_append.mp hc with hc | hc
  · rw [List.eq_of_mem_replicate hc]
    rfl
  · exact Nat.isDigit_of_mem_toDigits (by decide) (by decide) hc

theorem length_padded {width n : Nat} (hwidth : 0 < width) (h : n < Nat.pow 10 width) :
    (padded width n).length = width := by
  have hle := (Nat.length_toDigits_le_iff (b := 10) (by decide) hwidth).mpr h
  rw [padded, List.length_append, List.length_replicate]
  exact Nat.sub_add_cancel hle

/-- Zeros in front do not change the value. -/
theorem decimal_padded (width n : Nat) : decimal (padded width n) = n := by
  have hzeros : ∀ k, (List.replicate k '0').foldl (fun n d => 10 * n + (d.toNat - '0'.toNat)) 0 = 0 := by
    intro k
    induction k with
    | zero => rfl
    | succ k ih => exact ih
  rw [decimal, padded, List.foldl_append, hzeros]
  exact Nat.ofDigitChars_ten_toDigits

theorem padded_ne_nil (width n : Nat) : padded width n ≠ [] :=
  List.append_ne_nil_of_right_ne_nil _ Nat.toDigits_ne_nil

/-- Does a text go on with something else than a digit? -/
def Stops (rest : List Char) : Prop := ∀ c ∈ rest.head?, c.isDigit = false

theorem stops_cons (h : c.isDigit = false) (rest : List Char) : Stops (c :: rest) := by
  intro d hd
  rw [← Option.some.inj hd]
  exact h

theorem takeWhile_isDigit (h : Stops rest) : rest.takeWhile Char.isDigit = [] := by
  cases rest with
  | nil => rfl
  | cons c rest => exact List.takeWhile_cons_of_neg (by rw [h c rfl]; exact nofun)

/-- The digits of what is looked at are taken. -/
theorem number_of_window {most : Option Nat} {more : List Char} (hdigits : Digits ds)
    (hsome : ds ≠ []) (hmore : Stops more) (hwindow : ∀ n ∈ most, (ds ++ rest).take n = ds ++ more)
    (hall : most = none → rest = more) : number most (ds ++ rest) = .ok (decimal ds, rest) := by
  have htaken : (ds ++ more).takeWhile Char.isDigit = ds := by
    rw [List.takeWhile_append_of_pos hdigits, takeWhile_isDigit hmore, List.append_nil]
  have hempty : (ds ++ rest).isEmpty = false := by simp [hsome]
  have hds : ds.isEmpty = false := List.isEmpty_eq_false_iff.mpr hsome
  cases most with
  | none =>
    obtain rfl := hall rfl
    unfold number
    dsimp only
    rw [htaken, hempty, hds, List.drop_left]
    rfl
  | some n =>
    unfold number
    dsimp only
    rw [hwindow n rfl, htaken, hempty, hds, List.drop_left]
    rfl

theorem number_none (hdigits : Digits ds) (hsome : ds ≠ []) (hrest : Stops rest) :
    number none (ds ++ rest) = .ok (decimal ds, rest) :=
  number_of_window hdigits hsome hrest nofun fun _ => rfl

/-- As many digits as are taken at most. -/
theorem number_some (hdigits : Digits ds) (hsome : ds ≠ []) (rest : List Char) :
    number (some ds.length) (ds ++ rest) = .ok (decimal ds, rest) := by
  have hmore : Stops [] := nofun
  apply number_of_window hdigits hsome hmore
  · intro n hn
    rw [← Option.some.inj hn, List.take_left, List.append_nil]
  · exact nofun

/-- Fewer digits than are taken at most. -/
theorem number_some_of_le (hdigits : Digits ds) (hsome : ds ≠ []) (hrest : Stops rest)
    (hle : ds.length ≤ n) : number (some n) (ds ++ rest) = .ok (decimal ds, rest) := by
  have hmore : Stops (rest.take (n - ds.length)) := by
    intro c hc
    cases rest with
    | nil => simp at hc
    | cons d rest =>
      cases hk : n - ds.length with
      | zero =>
        rw [hk] at hc
        cases hc
      | succ k =>
        rw [hk] at hc
        exact hrest c hc
  apply number_of_window hdigits hsome hmore
  · intro m hm
    rw [← Option.some.inj hm, List.take_append, List.take_of_length_le hle]
  · exact nofun

/-! ### Parts -/

/-- Marks and digits are no blanks. -/
theorem skipBlanks_cons (h : Text.isBlank c = false) (rest : List Char) :
    skipBlanks (c :: rest) = c :: rest :=
  List.dropWhile_cons_of_neg (by rw [h]; exact nofun)

theorem isBlank_of_isDigit (h : c.isDigit) : Text.isBlank c = false := by
  have hrange := Text.isDigit_iff.mp h
  apply Bool.eq_false_iff.mpr
  intro hblank
  obtain ⟨range, hmem, hlow, hhigh⟩ := Text.CodeRanges.holds_iff.mp hblank
  have hapart : ∀ range ∈ Text.whiteSpace, range.2 < 48 ∨ 57 < range.1 := by decide
  rcases hapart range hmem with h | h
  · omega
  · omega

theorem skipBlanks_digits (hdigits : Digits ds) (hsome : ds ≠ []) (rest : List Char) :
    skipBlanks (ds ++ rest) = ds ++ rest := by
  obtain ⟨c, cs, rfl⟩ := List.exists_cons_of_ne_nil hsome
  exact skipBlanks_cons (isBlank_of_isDigit (List.forall_mem_cons.mp hdigits).1) _

theorem mark_cons (h : Text.isBlank c = false) (rest : List Char) :
    mark c (c :: rest) = .ok rest := by
  rw [mark, skipBlanks_cons h]
  exact if_pos rfl

/-- A part of two digits. -/
theorem field_padded {least most : Nat} (hlow : least ≤ n) (hhigh : n ≤ most) (hmost : most < 100)
    (rest : List Char) : field least most (padded 2 n ++ rest) = .ok (n, rest) := by
  have hlength : (padded 2 n).length = 2 := length_padded (by decide) (show n < 100 by omega)
  have hnumber := number_some (digits_padded 2 n) (padded_ne_nil 2 n) rest
  rw [hlength, decimal_padded] at hnumber
  rw [field, skipBlanks_digits (digits_padded 2 n) (padded_ne_nil 2 n), hnumber]
  show (if least ≤ n && n ≤ most then _ else _) = _
  rw [if_pos (by simp [hlow, hhigh])]
  rfl

/-- A year without a sign. -/
theorem year_of_digit {cs : List Char} (hc : c.isDigit) :
    year (c :: cs) = (number (some 4) (c :: cs)).map fun (n, rest) => ((n : Int), rest) := by
  rw [year, skipBlanks_cons (isBlank_of_isDigit hc)]
  split
  · next heq =>
    rw [(List.cons.inj heq).1] at hc
    cases hc
  · next heq =>
    rw [(List.cons.inj heq).1] at hc
    cases hc
  · rfl

theorem year_yearChars {y : Int} (hlow : firstYear ≤ y) (hhigh : y ≤ lastYear)
    (hrest : Stops rest) : year (yearChars y ++ rest) = .ok (y, rest) := by
  have hsigned := number_none (digits_padded 4 y.natAbs) (padded_ne_nil 4 y.natAbs) hrest
  rw [decimal_padded] at hsigned
  unfold firstYear at hlow
  unfold lastYear at hhigh
  unfold yearChars
  -- without a sign the reader takes four digits, with one as many as there are
  split
  · next hplain =>
    have hlength : (padded 4 y.toNat).length = 4 :=
      length_padded (by decide) (show y.toNat < 10000 by omega)
    have hnumber := number_some (digits_padded 4 y.toNat) (padded_ne_nil 4 y.toNat) rest
    rw [hlength, decimal_padded] at hnumber
    obtain ⟨c, cs, hcs⟩ := List.exists_cons_of_ne_nil (padded_ne_nil 4 y.toNat)
    have hc : c.isDigit := digits_padded 4 y.toNat c (hcs ▸ List.mem_cons_self)
    rw [hcs, List.cons_append] at hnumber ⊢
    rw [year_of_digit hc, hnumber]
    exact congrArg (fun y => Except.ok (y, rest)) (Int.toNat_of_nonneg hplain.1)
  · by_cases hneg : y < 0
    · rw [if_pos hneg, List.cons_append]
      show (number none (padded 4 y.natAbs ++ rest) >>= _) = _
      rw [hsigned]
      show (if y.natAbs ≤ 0x80000000 then _ else _) = _
      rw [if_pos (by omega)]
      exact congrArg (fun y => Except.ok (y, rest)) (by omega)
    · rw [if_neg hneg, List.cons_append]
      show (number none (padded 4 y.natAbs ++ rest) >>= _) = _
      rw [hsigned]
      show (if y.natAbs < 0x80000000 then _ else _) = _
      rw [if_pos (by omega)]
      exact congrArg (fun y => Except.ok (y, rest)) (by omega)

/-- A fraction of so many digits. -/
theorem fraction_padded {width : Nat} (hwidth : 0 < width) (hle : width ≤ 9)
    (h : n < Nat.pow 10 width) (hrest : Stops rest) :
    fraction ('.' :: (padded width n ++ rest)) = .ok (n * Nat.pow 10 (9 - width), rest) := by
  have hlength : (padded width n).length = width := length_padded hwidth h
  have hnumber := number_some_of_le (digits_padded width n) (padded_ne_nil width n) hrest
    (hlength ▸ hle)
  rw [decimal_padded] at hnumber
  have hskip : rest.dropWhile Char.isDigit = rest := by
    have hsplit := List.takeWhile_append_dropWhile (p := Char.isDigit) (l := rest)
    rwa [takeWhile_isDigit hrest] at hsplit
  rw [fraction, hnumber]
  show Except.ok (n * Nat.pow 10 (9 - ((padded width n ++ rest).length - rest.length)),
    rest.dropWhile Char.isDigit) = _
  rw [hskip, List.length_append, Nat.add_sub_cancel, hlength]

theorem fraction_fractionChars (h : n < 1000000000) (rest : List Char) :
    fraction (fractionChars n ++ 'Z' :: rest) = .ok (n, 'Z' :: rest) := by
  have hstops : Stops ('Z' :: rest) := stops_cons rfl rest
  unfold fractionChars
  split
  · next hzero =>
    rw [hzero]
    rfl
  · split
    · next hmilli =>
      have hlt : n / 1000000 < Nat.pow 10 3 := show n / 1000000 < 1000 by omega
      rw [List.cons_append, fraction_padded (by decide) (by decide) hlt hstops]
      exact congrArg (fun n => Except.ok (n, 'Z' :: rest))
        (show n / 1000000 * 1000000 = n by omega)
    · split
      · next hmicro =>
        have hlt : n / 1000 < Nat.pow 10 6 := show n / 1000 < 1000000 by omega
        rw [List.cons_append, fraction_padded (by decide) (by decide) hlt hstops]
        exact congrArg (fun n => Except.ok (n, 'Z' :: rest)) (show n / 1000 * 1000 = n by omega)
      · have hlt : n < Nat.pow 10 9 := h
        rw [List.cons_append, fraction_padded (by decide) (by decide) hlt hstops]
        exact congrArg (fun n => Except.ok (n, 'Z' :: rest)) (Nat.mul_one n)

/-! ### Instants -/

/-- A clock of universal time shows the instant itself. -/
theorem ofLocal?_self (t : Instant) :
    ofLocal? t.date t.minutes t.second t.nanosecond 0 t.second_le t.nanosecond_lt = some t := by
  have hminutes := t.minutes_lt
  have hsame : (((t.minutes : Int) - 0) % 1440).toNat = t.minutes := by omega
  unfold ofLocal?
  dsimp only
  rw [if_neg (by omega), if_neg (by omega), Option.map_some]
  simp only [hsame]

/-- An instant is read back from its text. -/
theorem parse_render (t : Instant) : parse t.render = .ok t := by
  have hbound := t.minutes_lt
  have hsecond := t.second_le
  have hmonth := t.date.month_mem
  have hday := t.date.day_mem
  have hdays : daysInMonth t.date.year t.date.month ≤ 31 := by
    unfold daysInMonth
    split
    · split <;> decide
    · split <;> decide
  unfold parse render
  simp only [String.toList_ofList, List.append_assoc, List.cons_append]
  -- the fields in the order of the text, then the offset, which `Z` says is none
  refine bind_eq_ok_iff.mpr
    ⟨_, year_yearChars t.date.year_mem.1 t.date.year_mem.2 (stops_cons rfl _), ?_⟩
  refine bind_eq_ok_iff.mpr ⟨_, mark_cons (by decide) _, ?_⟩
  refine bind_eq_ok_iff.mpr ⟨_, field_padded hmonth.1 hmonth.2 (by decide) _, ?_⟩
  refine bind_eq_ok_iff.mpr ⟨_, mark_cons (by decide) _, ?_⟩
  refine bind_eq_ok_iff.mpr ⟨_, field_padded hday.1 (Nat.le_trans hday.2 hdays) (by decide) _, ?_⟩
  refine bind_eq_ok_iff.mpr ⟨_, rfl, ?_⟩
  refine bind_eq_ok_iff.mpr ⟨_, field_padded (Nat.zero_le _) (by omega) (by decide) _, ?_⟩
  refine bind_eq_ok_iff.mpr ⟨_, mark_cons (by decide) _, ?_⟩
  refine bind_eq_ok_iff.mpr ⟨_, field_padded (Nat.zero_le _) (by omega) (by decide) _, ?_⟩
  refine bind_eq_ok_iff.mpr ⟨_, mark_cons (by decide) _, ?_⟩
  refine bind_eq_ok_iff.mpr ⟨_, field_padded (Nat.zero_le _) hsecond (by decide) _, ?_⟩
  refine bind_eq_ok_iff.mpr ⟨_, fraction_fractionChars t.nanosecond_lt [], ?_⟩
  have hoffset : offset (skipBlanks ['Z']) = .ok (0, []) := by decide
  refine bind_eq_ok_iff.mpr ⟨_, hoffset, ?_⟩
  have hminutes : t.minutes / 60 * 60 + t.minutes % 60 = t.minutes := Nat.div_add_mod' _ _
  rw [if_neg (by decide)]
  dsimp only
  rw [Date.ofParts?_self]
  dsimp only
  rw [if_neg (by decide), dif_pos t.second_le, dif_pos t.nanosecond_lt, hminutes, ofLocal?_self]
  rfl

end SchemaForge.Instant
