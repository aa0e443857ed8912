import Mathlib.Data.List.DropRight
import SchemaForge.Proofs.Json.Content
import SchemaForge.Proofs.Json.Scaling
import SchemaForge.Proofs.Number.Shortest

/-!
# Numbers that are not whole are read again

The text of a binary64 number follows the grammar, and reading it gives a number again. Reading
rounds three times, so it may give another number than was written, and a text near the greatest
number could be read as too large; the digits of the shortest text keep clear of that.
-/

namespace SchemaForge

open Binary64

namespace Json

/-! ### Values of numbers -/

section Values

variable {w : NumberChars} {negative : Bool}

namespace NumberChars

/-- All digits but those of the exponent. -/
def digitChars (w : NumberChars) : List Char := w.whole ++ w.fraction.getD []

/-- The digits as one whole number. -/
def significand (w : NumberChars) : Nat := Nat.ofDigitChars 10 w.digitChars 0

/-- The power of ten that the significand is scaled by. -/
def power (w : NumberChars) : Int := (w.text false).exponent - ((w.fraction.getD []).length : Int)

end NumberChars

theorem formatted_of_scaled {significand : Nat} {power : Int} {y : Binary64}
    (h : scaled negative significand power = .ok (.float y)) : y.Formatted := by
  unfold scaled at h
  split at h
  · cases h
  · next x hx =>
    split at h
    · cases h
    · next z hz =>
      have hformatted := formatted_scale? (formatted_ofRatio? hx) hz
      obtain rfl := Number.float.inj (Except.ok.inj h)
      exact ⟨hformatted.mantissa_lt, hformatted.exponent_le⟩

/-- A number that is not whole is one of the format. -/
theorem formatted_of_value {t : NumberText} {y : Binary64} (h : t.value = .ok (.float y)) :
    y.Formatted := by
  unfold NumberText.value at h
  dsimp only at h
  split at h
  · split at h
    · cases h
    · split at h
      · cases h
      · exact formatted_of_scaled h
  · exact formatted_of_scaled h

/-- A significand that fits has a number, if that can be scaled. -/
theorem exists_scaled {significand : Nat} {power : Int} (hfits : significand ≤ UInt64.size)
    (hscale : ∀ x : Binary64, x.magnitude = magnitudeOf significand → ∃ y, scale? x power = some y) :
    ∃ n, scaled negative significand power = .ok n := by
  have hmost : magnitudeOf UInt64.size < limit := by decide +kernel
  have hlt : magnitudeOf significand < limit :=
    Nat.lt_of_le_of_lt (magnitudeOf_mono hfits) hmost
  obtain ⟨x, hx, hmagnitude⟩ := exists_ofRatio? false hlt
  obtain ⟨y, hy⟩ := hscale x hmagnitude
  refine ⟨.float { y with negative }, ?_⟩
  unfold scaled
  -- rounding is too large to be computed with here
  generalize ofRatio? false significand 1 = r at hx ⊢
  subst hx
  dsimp only
  rw [hy]

/-- The digits of a number that is not plain are taken in as one whole number, which is scaled. -/
theorem value_of_fitting (hplain : (w.text negative).plain = false)
    (hfits : w.significand < UInt64.size) :
    (w.text negative).value = scaled negative w.significand w.power := by
  have hsplit : w.significand =
      Nat.ofDigitChars 10 (w.fraction.getD []) (Nat.ofDigitChars 10 w.whole 0) :=
    List.foldl_append
  have hwhole : absorb 0 (w.text negative).whole = (Nat.ofDigitChars 10 w.whole 0, w.whole.length) := by
    apply absorb_valuesOf
    rw [hsplit] at hfits
    exact Nat.lt_of_le_of_lt (le_ofDigitChars _ _) hfits
  have hfraction : absorb (Nat.ofDigitChars 10 w.whole 0) (w.text negative).fraction =
      (w.significand, (w.fraction.getD []).length) := by
    have hchars : (w.text negative).fraction = valuesOf (w.fraction.getD []) := by
      rw [NumberChars.text]
      cases w.fraction with
      | none | some => rfl
    rw [hchars, absorb_valuesOf (hsplit ▸ hfits), hsplit]
  have hlength : (w.text negative).whole.length = w.whole.length := List.length_map _
  have hpower : (((w.whole.length - w.whole.length : Nat) : Int) - ((w.fraction.getD []).length : Int) +
      (w.text negative).exponent) = w.power := by
    show _ = (w.text negative).exponent - ((w.fraction.getD []).length : Int)
    omega
  unfold NumberText.value
  rw [hwhole]
  dsimp only
  rw [hplain, Bool.false_and, if_neg Bool.false_ne_true, hfraction]
  dsimp only
  rw [hlength, hpower]
  rfl

end Values

/-! ### Texts of numbers -/

/-- The digits `ds`, the first of the power `first` of ten, say the decimal number `d`. -/
structure Says (ds : List Char) (first : Int) (d : Decimal) : Prop where
  digits : Digits ds
  some : ds ≠ []
  head : ds.head? ≠ Option.some '0'
  value : ∃ zeros : Nat, d.digits = Nat.ofDigitChars 10 ds 0 * Nat.pow 10 zeros ∧
    first + 1 = d.power + zeros + ds.length

/-- A text without its zeros at the end. -/
theorem exists_replicate (cs : List Char) : ∃ zeros,
    cs = (cs.reverse.dropWhile (· == '0')).reverse ++ List.replicate zeros '0' := by
  have hzeros : cs.rtakeWhile (· == '0') = List.replicate (cs.rtakeWhile (· == '0')).length '0' := by
    apply List.eq_replicate_iff.mpr ⟨rfl, ?_⟩
    intro c hc
    have hzero := List.mem_rtakeWhile_imp hc
    exact beq_iff_eq.mp hzero
  refine ⟨(cs.rtakeWhile (· == '0')).length, ?_⟩
  rw [← hzeros]
  exact List.rdropWhile_append_rtakeWhile.symm

theorem says_leading {d : Decimal} (h : 0 < d.digits) : Says d.leading.1 d.leading.2 d := by
  obtain ⟨zeros, hzeros⟩ := exists_replicate (Nat.toDigits 10 d.digits)
  obtain ⟨kept, hkept⟩ : ∃ kept, kept = d.leading.1 := ⟨_, rfl⟩
  have hall : Nat.toDigits 10 d.digits = kept ++ List.replicate zeros '0' := hkept ▸ hzeros
  have hdigits : Digits (kept ++ List.replicate zeros '0') := hall ▸ digits_toDigits d.digits
  have hhead : (kept ++ List.replicate zeros '0').head? ≠ some '0' := by
    rw [← hall]
    exact fun hzero => absurd (head?_toDigits hzero) (Nat.ne_of_gt h)
  have hvalue := Nat.ofDigitChars_ten_toDigits (n := d.digits)
  rw [hall, Nat.ofDigitChars_append, Nat.ofDigitChars_replicate_zero, Nat.mul_comm] at hvalue
  have hsome : kept ≠ [] := by
    rintro rfl
    rw [Nat.ofDigitChars_nil, Nat.zero_mul] at hvalue
    omega
  have hlength : d.leading.2 = d.power + ((kept ++ List.replicate zeros '0').length : Int) - 1 := by
    rw [← hall]
    rfl
  rw [← hkept]
  refine ⟨fun c hc => hdigits c (List.mem_append_left _ hc), hsome, ?_, zeros, hvalue.symm, ?_⟩
  · obtain ⟨c, cs, rfl⟩ := List.exists_cons_of_ne_nil hsome
    exact hhead
  · rw [hlength, List.length_append, List.length_replicate]
    omega

/-- Is the significand small, and is it not scaled up too far? -/
structure InRange (w : NumberChars) : Prop where
  fits : w.significand < UInt64.size
  scales : w.power ≤ 0 ∨ ∃ p : Nat, w.power = p ∧ 0 < w.significand ∧
    w.significand ≤ Nat.pow 10 17 ∧ w.significand * Nat.pow 10 p ≤ edge

theorem exists_value {w : NumberChars} {negative : Bool} (hplain : (w.text negative).plain = false)
    (h : InRange w) : ∃ n, (w.text negative).value = .ok n := by
  rw [value_of_fitting hplain h.fits]
  apply exists_scaled (Nat.le_of_lt h.fits)
  intro x hx
  rcases h.scales with hpower | ⟨p, hpower, hpos, hmost, hedge⟩
  · have hample : magnitudeOf UInt64.size ≤ ample := by decide +kernel
    have hle : x.magnitude ≤ ample :=
      hx ▸ Nat.le_trans (magnitudeOf_mono (Nat.le_of_lt h.fits)) hample
    exact exists_scale?_of_nonpos hle hpower
  · rw [hpower]
    exact exists_scale?_of_le hx hpos hmost hedge

section Layouts

variable {ds : List Char} {first : Int} {d : Decimal}

theorem ofDigitChars_lt {cs : List Char} (h : Digits cs) (n : Nat) :
    Nat.ofDigitChars 10 cs n < (n + 1) * Nat.pow 10 cs.length := by
  induction cs generalizing n with
  | nil => exact Nat.lt_of_lt_of_eq n.lt_succ_self (Nat.mul_one _).symm
  | cons c cs ih =>
    obtain ⟨hc, hcs⟩ := List.forall_mem_cons.mp h
    have hdigit : c.toNat - '0'.toNat ≤ 9 := Nat.sub_le_sub_right (Text.isDigit_iff.mp hc).2 48
    show Nat.ofDigitChars 10 cs (10 * n + (c.toNat - '0'.toNat)) < _
    calc Nat.ofDigitChars 10 cs (10 * n + (c.toNat - '0'.toNat))
        < (10 * n + (c.toNat - '0'.toNat) + 1) * Nat.pow 10 cs.length := ih hcs _
      _ ≤ (n + 1) * 10 * Nat.pow 10 cs.length := Nat.mul_le_mul_right _ (by omega)
      _ = (n + 1) * Nat.pow 10 (c :: cs).length := by
          rw [Nat.mul_assoc]
          congr 1
          exact Nat.pow_succ'.symm

theorem Says.pos (h : Says ds first d) (hd : 0 < d.digits) : 0 < Nat.ofDigitChars 10 ds 0 := by
  obtain ⟨zeros, hvalue, -⟩ := h.value
  exact Nat.pos_of_mul_pos_right (hvalue ▸ hd)

theorem Says.le (h : Says ds first d) : Nat.ofDigitChars 10 ds 0 ≤ d.digits := by
  obtain ⟨zeros, hvalue, -⟩ := h.value
  rw [hvalue]
  exact Nat.le_mul_of_pos_right _ (Nat.pow_pos (by decide))

/-- The digits of a number below one behind zeros. -/
def belowOne (ds : List Char) (first : Int) : NumberChars :=
  ⟨['0'], some (List.replicate ((-first).toNat - 1) '0' ++ ds), none⟩

theorem placed_of_neg (hneg : first < 0) : placed ds first = (belowOne ds first).chars := by
  rw [placed, if_pos hneg, NumberChars.chars]
  show _ = ['0'] ++ ('.' :: (List.replicate _ '0' ++ ds) ++ [])
  rw [List.append_nil]
  rfl

theorem wellFormed_belowOne (h : Says ds first d) : (belowOne ds first).WellFormed where
  digits := digits_replicate 1
  some := nofun
  zero _ := rfl
  fraction fs hfs := by
    obtain rfl := Option.some.inj hfs
    exact ⟨(digits_replicate _).append h.digits, List.append_ne_nil_of_right_ne_nil _ h.some⟩
  exponent := nofun

theorem inRange_belowOne (h : Says ds first d) (hd : d.digits ≤ Nat.pow 10 17) :
    InRange (belowOne ds first) where
  fits := by
    have hsignificand : (belowOne ds first).significand = Nat.ofDigitChars 10 ds 0 := by
      show Nat.ofDigitChars 10 ('0' :: (List.replicate _ '0' ++ ds)) 0 = _
      rw [show '0' :: (List.replicate ((-first).toNat - 1) '0' ++ ds) =
        List.replicate ((-first).toNat - 1 + 1) '0' ++ ds from rfl, Nat.ofDigitChars_append,
        Nat.ofDigitChars_replicate_zero, Nat.mul_zero]
    rw [hsignificand]
    exact Nat.lt_of_le_of_lt (Nat.le_trans h.le hd) (by decide)
  scales := .inl (by
    show (0 : Int) - _ ≤ 0
    omega)

/-- The digits of a number of at least one around the point. -/
def aboveOne (ds : List Char) (first : Int) : NumberChars :=
  ⟨(ds ++ List.replicate (first.toNat + 1 - ds.length) '0').take (first.toNat + 1),
    some (if (ds.drop (first.toNat + 1)).isEmpty then ['0'] else ds.drop (first.toNat + 1)), none⟩

theorem placed_of_nonneg (hpos : 0 ≤ first) : placed ds first = (aboveOne ds first).chars := by
  rw [placed, if_neg (Int.not_lt.mpr hpos), NumberChars.chars]
  show _ = _ ++ ('.' :: _ ++ [])
  rw [List.append_nil]
  rfl

/-- Either all digits stand before the point, with zeros behind them, or some stand behind it. -/
theorem aboveOne_cases (ds : List Char) (first : Int) :
    aboveOne ds first =
        ⟨ds ++ List.replicate (first.toNat + 1 - ds.length) '0', some ['0'], none⟩ ∧
      ds.length ≤ first.toNat + 1 ∨
    aboveOne ds first = ⟨ds.take (first.toNat + 1), some (ds.drop (first.toNat + 1)), none⟩ ∧
      first.toNat + 1 < ds.length := by
  unfold aboveOne
  by_cases hle : ds.length ≤ first.toNat + 1
  · left
    rw [List.drop_of_length_le hle, List.take_of_length_le]
    · exact ⟨rfl, hle⟩
    · rw [List.length_append, List.length_replicate]
      omega
  · right
    have hsome : (ds.drop (first.toNat + 1)).isEmpty = false := by
      rw [List.isEmpty_eq_false_iff, ne_eq, List.drop_eq_nil_iff]
      exact hle
    rw [hsome, show first.toNat + 1 - ds.length = 0 by omega, List.replicate_zero, List.append_nil]
    exact ⟨rfl, by omega⟩

theorem wellFormed_aboveOne (h : Says ds first d) : (aboveOne ds first).WellFormed := by
  obtain ⟨c, cs, hds⟩ := List.exists_cons_of_ne_nil h.some
  have hhead : c ≠ '0' := fun hc => h.head (by rw [hds, hc]; rfl)
  rcases aboveOne_cases ds first with ⟨heq, hle⟩ | ⟨heq, hlt⟩
  · rw [heq]
    refine ⟨h.digits.append (digits_replicate _), List.append_ne_nil_of_left_ne_nil h.some _,
      fun hzero => ?_, ?_, nofun⟩
    · rw [hds] at hzero
      exact absurd (Option.some.inj hzero) hhead
    · intro fs hfs
      obtain rfl := Option.some.inj hfs
      exact ⟨digits_replicate 1, nofun⟩
  · rw [heq]
    refine ⟨fun e he => h.digits e (List.mem_of_mem_take he), ?_, fun hzero => ?_, ?_, nofun⟩
    · rw [hds]
      exact nofun
    · rw [hds] at hzero
      exact absurd (Option.some.inj hzero) hhead
    · intro fs hfs
      obtain rfl := Option.some.inj hfs
      refine ⟨fun e he => h.digits e (List.mem_of_mem_drop he), ?_⟩
      rw [ne_eq, List.drop_eq_nil_iff]
      omega

theorem inRange_aboveOne (h : Says ds first d) (hd : d.digits ≤ Nat.pow 10 17) (hfirst : first < 16) :
    InRange (aboveOne ds first) := by
  rcases aboveOne_cases ds first with ⟨heq, hle⟩ | ⟨heq, hlt⟩
  · rw [heq]
    refine ⟨?_, .inl (show (0 : Int) - _ ≤ 0 by omega)⟩
    -- as many digits as the point has places before it, and one behind it
    have hchars : NumberChars.digitChars
        ⟨ds ++ List.replicate (first.toNat + 1 - ds.length) '0', some ['0'], none⟩ =
          ds ++ List.replicate (first.toNat + 1 - ds.length) '0' ++ ['0'] := rfl
    have hdigits : Digits (ds ++ List.replicate (first.toNat + 1 - ds.length) '0' ++ ['0']) :=
      (h.digits.append (digits_replicate _)).append (digits_replicate 1)
    rw [NumberChars.significand, hchars]
    refine Nat.lt_of_lt_of_le (ofDigitChars_lt hdigits 0) ?_
    rw [Nat.zero_add, Nat.one_mul]
    refine Nat.le_trans (Nat.pow_le_pow_right (by decide) (?_ : _ ≤ 17)) (by decide)
    simp only [List.length_append, List.length_replicate, List.length_singleton]
    omega
  · rw [heq]
    refine ⟨?_, .inl (show (0 : Int) - _ ≤ 0 by omega)⟩
    have hchars : NumberChars.digitChars
        ⟨ds.take (first.toNat + 1), some (ds.drop (first.toNat + 1)), none⟩ = ds :=
      List.take_append_drop _ _
    rw [NumberChars.significand, hchars]
    exact Nat.lt_of_le_of_lt (Nat.le_trans h.le hd) (by decide)

/-- The digits with an exponent. -/
def withExponent (ds : List Char) (first : Int) : NumberChars :=
  ⟨ds.take 1, if (ds.drop 1).isEmpty then none else some (ds.drop 1),
    some (decide (first < 0), Nat.toDigits 10 first.natAbs)⟩

theorem scientific_eq (ds : List Char) (first : Int) :
    scientific ds first = (withExponent ds first).chars := by
  have hsign : (if first < 0 then '-' else '+') = if decide (first < 0) then '-' else '+' := by
    by_cases hneg : first < 0
    · rw [if_pos hneg, if_pos (decide_eq_true hneg)]
    · rw [if_neg hneg, if_neg (by simpa using hneg)]
  unfold scientific
  rw [hsign]
  match ds with
  | [] | [_] | _ :: _ :: _ => simp [withExponent, NumberChars.chars, NumberChars.fractionPart,
      NumberChars.exponentPart]

theorem digitChars_withExponent (ds : List Char) (first : Int) :
    (withExponent ds first).digitChars = ds := by
  match ds with
  | [] | [_] | _ :: _ :: _ => rfl

theorem wellFormed_withExponent (h : Says ds first d) : (withExponent ds first).WellFormed := by
  obtain ⟨c, cs, rfl⟩ := List.exists_cons_of_ne_nil h.some
  obtain ⟨hc, hcs⟩ := List.forall_mem_cons.mp h.digits
  refine ⟨fun e he => List.mem_singleton.mp he ▸ hc, nofun, fun hzero => absurd hzero h.head, ?_, ?_⟩
  · intro fs hfs
    cases cs with
    | nil => cases hfs
    | cons c' cs =>
      obtain rfl := Option.some.inj hfs
      exact ⟨hcs, nofun⟩
  · intro e he
    obtain rfl := Option.some.inj he
    exact ⟨digits_toDigits _, Nat.toDigits_ne_nil⟩

theorem power_withExponent (h : Says ds first d) :
    (withExponent ds first).power = first + 1 - ds.length := by
  obtain ⟨c, cs, rfl⟩ := List.exists_cons_of_ne_nil h.some
  have hexponent : ((withExponent (c :: cs) first).text false).exponent = first := by
    show (if decide (first < 0) = true then -(digitsValue (valuesOf (Nat.toDigits 10 first.natAbs)) : Int)
      else digitsValue (valuesOf (Nat.toDigits 10 first.natAbs))) = first
    rw [digitsValue_valuesOf, Nat.ofDigitChars_ten_toDigits]
    by_cases hneg : first < 0
    · rw [if_pos (decide_eq_true hneg)]
      omega
    · rw [if_neg (by simpa using hneg)]
      omega
  have hlength : ((withExponent (c :: cs) first).fraction.getD []).length = cs.length := by
    cases cs with
    | nil | cons => rfl
  rw [NumberChars.power, hexponent, hlength, List.length_cons]
  omega

theorem inRange_withExponent (h : Says ds first d) (hpos : 0 < d.digits)
    (hd : d.digits ≤ Nat.pow 10 17)
    (hedge : 0 ≤ d.power → d.digits * Nat.pow 10 d.power.toNat ≤ edge) :
    InRange (withExponent ds first) := by
  have hsignificand : (withExponent ds first).significand = Nat.ofDigitChars 10 ds 0 := by
    rw [NumberChars.significand, digitChars_withExponent]
  obtain ⟨zeros, hvalue, hfirst⟩ := h.value
  have hpower : (withExponent ds first).power = d.power + zeros := by
    rw [power_withExponent h]
    omega
  refine ⟨?_, ?_⟩
  · rw [hsignificand]
    exact Nat.lt_of_le_of_lt (Nat.le_trans h.le hd) (by decide)
  rw [hpower, hsignificand]
  by_cases hdown : d.power + zeros ≤ 0
  · exact .inl hdown
  refine .inr ⟨(d.power + zeros).toNat, by omega, h.pos hpos, Nat.le_trans h.le hd, ?_⟩
  by_cases hsmall : 0 ≤ d.power
  · refine Nat.le_trans (Nat.le_of_eq ?_) (hedge hsmall)
    rw [hvalue, Nat.mul_assoc, show (d.power + zeros).toNat = zeros + d.power.toNat by omega]
    congr 1
    exact Nat.pow_add ..
  · -- a decimal number with a fraction has no more zeros before the point than behind its digits
    have hfar : Nat.pow 10 17 ≤ edge := by decide +kernel
    refine Nat.le_trans ?_ (Nat.le_trans hd hfar)
    rw [hvalue]
    exact Nat.mul_le_mul_left _ (Nat.pow_le_pow_right (by decide) (by omega))

end Layouts

/-! ### All numbers -/

section All

variable {x : Binary64}

/-- The greatest number of the format, by its magnitude. -/
def Greatest (x : Binary64) : Prop := x.mantissa = 0x1FFFFFFFFFFFFF ∧ x.exponent = 2045

theorem shiftLeft_mul_one_shiftLeft (m a b : Nat) : m <<< a * 1 <<< b = m * 2 ^ (a + b) := by
  rw [Nat.shiftLeft_eq, Nat.one_shiftLeft, pow_add, Nat.mul_assoc]

/-- The shortest digits of all numbers but the greatest keep clear of what is read as too large. -/
theorem shortest_le_edge (h : x.Formatted) (hx : 0 < x.mantissa) (hgreatest : ¬Greatest x)
    (hpower : 0 ≤ x.shortest.power) :
    x.shortest.digits * Nat.pow 10 x.shortest.power.toNat ≤ edge := by
  have hmantissa := h.mantissa_lt
  have hexponent := h.exponent_le
  have hne : x.exponent = 2045 → x.mantissa ≠ 0x1FFFFFFFFFFFFF := fun he hm => hgreatest ⟨hm, he⟩
  obtain ⟨top, htop⟩ : ∃ top, top = 969 + 1076 := ⟨_, rfl⟩
  have hedge : edge * quarter = 0x7FFFFFFFFFFFFA * 2 ^ top := by
    rw [htop]
    exact shiftLeft_mul_one_shiftLeft _ 969 1076
  apply Nat.le_of_mul_le_mul_right _ quarter_pos
  refine Nat.le_trans (shortest_le h hx hpower) ?_
  rw [hedge]
  by_cases hlast : x.exponent = top
  · rw [hlast]
    exact Nat.mul_le_mul_right _ (by omega)
  · calc (4 * x.mantissa + 2) * 2 ^ x.exponent ≤ 0x7FFFFFFFFFFFFA * 2 * 2 ^ x.exponent :=
          Nat.mul_le_mul_right _ (by omega)
      _ = 0x7FFFFFFFFFFFFA * 2 ^ (x.exponent + 1) := by
          rw [Nat.mul_assoc, pow_succ, Nat.mul_comm 2]
      _ ≤ 0x7FFFFFFFFFFFFA * 2 ^ top :=
          Nat.mul_le_mul_left _ (Nat.pow_le_pow_right Nat.two_pos (by omega))

/-- Zero has a point and a digit behind it. -/
theorem wellFormed_zero : NumberChars.WellFormed ⟨['0'], some ['0'], none⟩ where
  digits := digits_replicate 1
  some := nofun
  zero _ := rfl
  fraction fs hfs := by
    obtain rfl := Option.some.inj hfs
    exact ⟨digits_replicate 1, nofun⟩
  exponent := nofun

/-- The characters of a number that is not whole. -/
theorem exists_chars (h : x.Formatted) : ∃ w, NumberChars.WellFormed w ∧
    (renderNumber (.float x)).toList = signChars x.negative ++ w.chars ∧
      (w.text x.negative).plain = false ∧ (¬Greatest x → InRange w) := by
  have hrender : ∀ {body : List Char} {w : NumberChars}, body = w.chars →
      (String.ofList ((if x.negative then ['-'] else []) ++ body)).toList =
        signChars x.negative ++ w.chars := by
    rintro body w rfl
    rw [String.toList_ofList]
    rfl
  unfold renderNumber Binary64.render
  dsimp only
  -- zero, then a plain number below or above one, then a number with an exponent
  by_cases hzero : x.isZero
  · rw [if_pos hzero]
    exact ⟨⟨['0'], some ['0'], none⟩, wellFormed_zero, hrender rfl, rfl,
      fun _ => ⟨by decide, .inl (by decide)⟩⟩
  rw [if_neg hzero]
  have hx : 0 < x.mantissa := Nat.pos_of_ne_zero fun hm => hzero (beq_iff_eq.mpr hm)
  obtain ⟨hpos, hdigits⟩ := digits_shortest h hx
  have hsays := says_leading hpos
  by_cases hplain : plainPower x.shortest.leading.2
  · rw [if_pos hplain]
    simp only [plainPower, Bool.and_eq_true, decide_eq_true_eq] at hplain
    rcases Int.lt_or_le x.shortest.leading.2 0 with hneg | hnonneg
    · exact ⟨_, wellFormed_belowOne hsays, hrender (placed_of_neg hneg), rfl,
        fun _ => inRange_belowOne hsays hdigits⟩
    · exact ⟨_, wellFormed_aboveOne hsays, hrender (placed_of_nonneg hnonneg), rfl,
        fun _ => inRange_aboveOne hsays hdigits hplain.2⟩
  · rw [if_neg hplain]
    refine ⟨_, wellFormed_withExponent hsays, hrender (scientific_eq _ _), Bool.and_false _,
      fun hgreatest => ?_⟩
    exact inRange_withExponent hsays hpos hdigits (shortest_le_edge h hx hgreatest)

theorem written_float (h : x.Formatted) : Written (.float x) := by
  obtain ⟨w, hw, hchars, -⟩ := exists_chars h
  exact ⟨x.negative, w, hw, hchars⟩

/-- Every number is read again from its text, though it may be another one. -/
theorem readable_float (h : x.Formatted) : Readable reread (.float x) := by
  by_cases hgreatest : Greatest x
  · have hread : ∀ negative,
        (reread (.float ⟨negative, 0x1FFFFFFFFFFFFF, 2045⟩)).value.isOk = true := by
      decide +kernel
    obtain ⟨negative, mantissa, exponent⟩ := x
    obtain ⟨rfl, rfl⟩ := hgreatest
    cases hvalue : (reread (.float ⟨negative, 0x1FFFFFFFFFFFFF, 2045⟩)).value with
    | error e =>
      have hok := hread negative
      rw [hvalue] at hok
      cases hok
    | ok n => exact ⟨n, hvalue⟩
  · obtain ⟨w, hw, hchars, hplain, hrange⟩ := exists_chars h
    obtain ⟨n, hn⟩ := exists_value hplain (hrange hgreatest)
    exact ⟨n, by rw [reread_eq hw hchars]; exact hn⟩

end All

end Json

/-! ### What reading makes -/

open Json

namespace Number

/-- Is a number one that reading makes: whole, or of the form of binary64 numbers? -/
def Formatted : Number → Prop
  | whole _ => True
  | float x => x.Formatted

variable {n : Number}

theorem formatted_of_value {t : NumberText} (h : t.value = .ok n) : n.Formatted := by
  cases n with
  | whole i => trivial
  | float x => exact Json.formatted_of_value h

theorem Formatted.written (h : n.Formatted) : Written n := by
  cases n with
  | whole i => exact written_whole i
  | float x => exact written_float h

theorem Formatted.readable (h : n.Formatted) : Readable reread n := by
  cases n with
  | whole i => exact ⟨.whole i, congrArg Reading.value (reread_whole i)⟩
  | float x => exact readable_float h

end Number

end SchemaForge
