import Mathlib.Data.Nat.Log
import Mathlib.Tactic.NormNum
import SchemaForge.Number.Binary64

/-!
# Rounding to binary64

A ratio is rounded to the magnitude `rounded`, in units of `2 ^ -1074`, and there is a number of that
magnitude unless it is too large. Rounding keeps the order of ratios, so a result is bounded by
rounding a bound.
-/

namespace SchemaForge.Binary64

/-! ### Rounding to whole numbers -/

section Halves

variable {a b a' b' n : Nat}

theorem div_le_roundHalfEven (a b : Nat) : a / b ≤ roundHalfEven a b := by
  unfold roundHalfEven
  dsimp only
  split
  · exact Nat.le_succ _
  · exact Nat.le_refl _

theorem roundHalfEven_le_succ (a b : Nat) : roundHalfEven a b ≤ a / b + 1 := by
  unfold roundHalfEven
  dsimp only
  split
  · exact Nat.le_refl _
  · exact Nat.le_succ _

theorem div_mono (hb : 0 < b) (hb' : 0 < b') (h : a * b' ≤ a' * b) : a / b ≤ a' / b' := by
  rw [Nat.le_div_iff_mul_le hb']
  apply Nat.le_of_mul_le_mul_right _ hb
  calc a / b * b' * b = a / b * b * b' := Nat.mul_right_comm ..
    _ ≤ a * b' := Nat.mul_le_mul_right b' (Nat.div_mul_le_self a b)
    _ ≤ a' * b := h

/-- Of two fractions with the same whole part, the greater one has the greater remainder. -/
theorem twice_mod_mono (h : a * b' ≤ a' * b) (heq : a / b = a' / b') :
    2 * (a % b) * b' ≤ 2 * (a' % b') * b := by
  have hsplit : (b * (a / b) + a % b) * b' ≤ (b' * (a' / b') + a' % b') * b := by
    rwa [Nat.div_add_mod, Nat.div_add_mod]
  rw [Nat.add_mul, Nat.add_mul, heq, Nat.mul_right_comm b, Nat.mul_right_comm b',
    Nat.mul_comm b' b] at hsplit
  rw [Nat.mul_assoc, Nat.mul_assoc]
  exact Nat.mul_le_mul_left 2 (Nat.le_of_add_le_add_left hsplit)

/-- Whether a fraction is rounded up depends on its remainder, and only that of a greater one can be
greater. -/
theorem roundHalfEven_mono (hb : 0 < b) (hb' : 0 < b') (h : a * b' ≤ a' * b) :
    roundHalfEven a b ≤ roundHalfEven a' b' := by
  -- rounding adds at most one, so the quotients decide unless they are equal
  rcases Nat.lt_or_eq_of_le (div_mono hb hb' h) with hlt | heq
  · exact Nat.le_trans (roundHalfEven_le_succ a b)
      (Nat.le_trans hlt (div_le_roundHalfEven a' b'))
  have hmod := twice_mod_mono h heq
  have hhalf : b ≤ 2 * (a % b) → b' ≤ 2 * (a' % b') := by
    intro hle
    apply Nat.le_of_mul_le_mul_right _ hb
    calc b' * b = b * b' := Nat.mul_comm ..
      _ ≤ 2 * (a % b) * b' := Nat.mul_le_mul_right b' hle
      _ ≤ 2 * (a' % b') * b := hmod
  have hmore : b < 2 * (a % b) → b' < 2 * (a' % b') := by
    intro hlt
    apply Nat.lt_of_mul_lt_mul_right (a := b)
    calc b' * b = b * b' := Nat.mul_comm ..
      _ < 2 * (a % b) * b' := Nat.mul_lt_mul_of_pos_right hlt hb'
      _ ≤ 2 * (a' % b') * b := hmod
  unfold roundHalfEven
  simp only [heq, Bool.or_eq_true, Bool.and_eq_true, decide_eq_true_eq, beq_iff_eq]
  split
  · next hup =>
    rw [if_pos (by omega)]
  · split
    · exact Nat.le_succ _
    · exact Nat.le_refl _

end Halves

/-! ### Magnitudes -/

/-- The magnitude of a number, in units of `2 ^ -1074`. -/
def magnitude (x : Binary64) : Nat := x.mantissa * 2 ^ x.exponent

/-- The power of two by which the mantissa for `num / den` counts. -/
def scaleOf (num den : Nat) : Nat := ((num <<< 1074) / den).log2 - 52

/-- The mantissa for `num / den`, which may be one more than there are. -/
def mantissaOf (num den : Nat) : Nat :=
  roundHalfEven (num <<< 1074) (den <<< scaleOf num den)

/-- The magnitude that `num / den` is rounded to. -/
def rounded (num den : Nat) : Nat := mantissaOf num den * 2 ^ scaleOf num den

/-- The magnitude of one. -/
def unit : Nat := 1 <<< 1074

theorem unit_pos : 0 < unit := by decide

/-- The magnitude that is too large for a number. -/
def limit : Nat := 1 <<< (53 + 2045)

/-- Is the number one of the format? -/
structure Formatted (x : Binary64) : Prop where
  mantissa_lt : x.mantissa < 0x20000000000000
  exponent_le : x.exponent ≤ 2045

section Ratios

variable {num den num' den' : Nat} {negative : Bool} {x : Binary64}

theorem mantissaOf_le (num den : Nat) : mantissaOf num den ≤ 0x20000000000000 := by
  refine Nat.le_trans (roundHalfEven_le_succ _ _) (Nat.succ_le_of_lt ?_)
  rw [Nat.shiftLeft_eq den, ← Nat.div_div_eq_div_mul]
  apply Nat.div_lt_of_lt_mul
  calc (num <<< 1074) / den < 2 ^ (((num <<< 1074) / den).log2 + 1) := Nat.lt_log2_self
    _ ≤ 2 ^ (scaleOf num den + 53) := by
        apply Nat.pow_le_pow_right Nat.two_pos
        unfold scaleOf
        omega
    _ = 2 ^ scaleOf num den * 0x20000000000000 := by rw [pow_add]; norm_num

/-- Where a power of two is taken out, the mantissa has all of its digits. -/
theorem le_mantissaOf (h : 0 < scaleOf num den) : 0x10000000000000 ≤ mantissaOf num den := by
  refine Nat.le_trans ?_ (div_le_roundHalfEven _ _)
  have hlog : scaleOf num den + 52 = ((num <<< 1074) / den).log2 := by
    unfold scaleOf at h ⊢
    omega
  have hne : (num <<< 1074) / den ≠ 0 := by
    intro hzero
    rw [hzero, Nat.log2_zero] at hlog
    omega
  rw [Nat.shiftLeft_eq den, ← Nat.div_div_eq_div_mul, Nat.le_div_iff_mul_le (Nat.two_pow_pos _)]
  calc 0x10000000000000 * 2 ^ scaleOf num den = 2 ^ (scaleOf num den + 52) := by
        rw [pow_add, Nat.mul_comm]; norm_num
    _ ≤ (num <<< 1074) / den := by
        rw [hlog]
        exact Nat.log2_self_le hne

theorem scaleOf_mono (hden : 0 < den) (hden' : 0 < den') (h : num * den' ≤ num' * den) :
    scaleOf num den ≤ scaleOf num' den' := by
  apply Nat.sub_le_sub_right
  rw [Nat.log2_eq_log_two, Nat.log2_eq_log_two]
  apply Nat.log_mono_right
  rw [Nat.le_div_iff_mul_le hden', Nat.shiftLeft_eq, Nat.shiftLeft_eq]
  apply Nat.le_of_mul_le_mul_right _ hden
  calc num * 2 ^ 1074 / den * den' * den = num * 2 ^ 1074 / den * den * den' :=
        Nat.mul_right_comm ..
    _ ≤ num * 2 ^ 1074 * den' := Nat.mul_le_mul_right den' (Nat.div_mul_le_self ..)
    _ = num * den' * 2 ^ 1074 := Nat.mul_right_comm ..
    _ ≤ num' * den * 2 ^ 1074 := Nat.mul_le_mul_right _ h
    _ = num' * 2 ^ 1074 * den := Nat.mul_right_comm ..

/-- Rounding keeps the order of ratios. -/
theorem rounded_mono (hden : 0 < den) (hden' : 0 < den') (h : num * den' ≤ num' * den) :
    rounded num den ≤ rounded num' den' := by
  rcases Nat.lt_or_eq_of_le (scaleOf_mono hden hden' h) with hlt | heq
  · -- the mantissas of a smaller power of two end where those of a greater one start
    calc rounded num den ≤ 0x20000000000000 * 2 ^ scaleOf num den :=
          Nat.mul_le_mul_right _ (mantissaOf_le num den)
      _ = 0x10000000000000 * 2 ^ (scaleOf num den + 1) := by rw [pow_succ]; omega
      _ ≤ 0x10000000000000 * 2 ^ scaleOf num' den' :=
          Nat.mul_le_mul_left _ (Nat.pow_le_pow_right Nat.two_pos hlt)
      _ ≤ rounded num' den' :=
          Nat.mul_le_mul_right _ (le_mantissaOf (Nat.lt_of_le_of_lt (Nat.zero_le _) hlt))
  · unfold rounded mantissaOf
    rw [← heq]
    apply Nat.mul_le_mul_right
    simp only [Nat.shiftLeft_eq]
    apply roundHalfEven_mono (Nat.mul_pos hden (Nat.two_pow_pos _))
      (Nat.mul_pos hden' (Nat.two_pow_pos _))
    calc num * 2 ^ 1074 * (den' * 2 ^ scaleOf num den)
        = num * den' * (2 ^ 1074 * 2 ^ scaleOf num den) := Nat.mul_mul_mul_comm ..
      _ ≤ num' * den * (2 ^ 1074 * 2 ^ scaleOf num den) := Nat.mul_le_mul_right _ h
      _ = num' * 2 ^ 1074 * (den * 2 ^ scaleOf num den) := Nat.mul_mul_mul_comm ..

/-- The number nearest to `num / den`, as large as it may be. -/
def nearest (negative : Bool) (num den : Nat) : Binary64 :=
  if mantissaOf num den = 0x20000000000000 then ⟨negative, 0x10000000000000, scaleOf num den + 1⟩
  else ⟨negative, mantissaOf num den, scaleOf num den⟩

theorem ofRatio?_eq (negative : Bool) (num den : Nat) :
    ofRatio? negative num den =
      if (nearest negative num den).exponent ≤ 2045 then some (nearest negative num den)
      else none :=
  rfl

theorem mantissa_nearest_lt (negative : Bool) (num den : Nat) :
    (nearest negative num den).mantissa < 0x20000000000000 := by
  have hle := mantissaOf_le num den
  unfold nearest
  split
  · dsimp only
    omega
  · dsimp only
    omega

theorem magnitude_nearest (negative : Bool) (num den : Nat) :
    (nearest negative num den).magnitude = rounded num den := by
  unfold nearest
  split
  · next heq =>
    rw [magnitude, rounded, heq]
    dsimp only
    rw [pow_succ]
    omega
  · rw [magnitude, rounded]

/-- The mantissa has all of its digits unless the number is as small as can be. -/
theorem le_mantissa_nearest (h : 0 < (nearest negative num den).exponent) :
    0x10000000000000 ≤ (nearest negative num den).mantissa := by
  unfold nearest at h ⊢
  by_cases hm : mantissaOf num den = 0x20000000000000
  · rw [if_pos hm]
  · rw [if_neg hm] at h ⊢
    dsimp only at h ⊢
    exact le_mantissaOf h

theorem exponent_nearest_le_iff (negative : Bool) (num den n : Nat) :
    (nearest negative num den).exponent ≤ n ↔ rounded num den < 1 <<< (53 + n) := by
  have hmantissa := mantissa_nearest_lt negative num den
  have hbound : 1 <<< (53 + n) = 0x20000000000000 * 2 ^ n := by
    rw [Nat.one_shiftLeft, pow_add]
    norm_num
  rw [← magnitude_nearest negative, magnitude, hbound]
  constructor
  · intro hle
    calc (nearest negative num den).mantissa * 2 ^ (nearest negative num den).exponent
        < 0x20000000000000 * 2 ^ (nearest negative num den).exponent :=
          Nat.mul_lt_mul_of_pos_right hmantissa (Nat.two_pow_pos _)
      _ ≤ 0x20000000000000 * 2 ^ n :=
          Nat.mul_le_mul_left _ (Nat.pow_le_pow_right Nat.two_pos hle)
  · intro hlt
    by_contra hgt
    have hpos : 0 < (nearest negative num den).exponent := by omega
    have hnormal := le_mantissa_nearest hpos
    apply Nat.not_le_of_lt hlt
    calc 0x20000000000000 * 2 ^ n = 0x10000000000000 * 2 ^ (n + 1) := by rw [pow_succ]; omega
      _ ≤ (nearest negative num den).mantissa * 2 ^ (nearest negative num den).exponent :=
          Nat.mul_le_mul hnormal (Nat.pow_le_pow_right Nat.two_pos (by omega))

/-- A ratio has a number unless it is too large. -/
theorem exists_ofRatio? (negative : Bool) (h : rounded num den < limit) :
    ∃ x, ofRatio? negative num den = some x ∧ x.magnitude = rounded num den := by
  rw [ofRatio?_eq, if_pos ((exponent_nearest_le_iff negative num den 2045).mpr h)]
  exact ⟨_, rfl, magnitude_nearest negative num den⟩

theorem formatted_ofRatio? (h : ofRatio? negative num den = some x) : x.Formatted := by
  rw [ofRatio?_eq] at h
  split at h
  · next hle =>
    obtain rfl := Option.some.inj h
    exact ⟨mantissa_nearest_lt negative num den, hle⟩
  · cases h

end Ratios

/-! ### Products and quotients -/

section Arithmetic

variable {x y : Binary64} {n : Nat}

/-- The unit of products of two magnitudes. -/
def squareUnit : Nat := 1 <<< 2148

theorem squareUnit_pos : 0 < squareUnit := by decide

/-- The magnitude that the product of two numbers is rounded to. -/
def product (m n : Nat) : Nat := rounded (m * n) squareUnit

theorem product_mono {m m' n' : Nat} (hm : m ≤ m') (hn : n ≤ n') : product m n ≤ product m' n' :=
  rounded_mono squareUnit_pos squareUnit_pos (Nat.mul_le_mul_right _ (Nat.mul_le_mul hm hn))

theorem exists_mul? (h : product x.magnitude y.magnitude < limit) :
    ∃ z, x.mul? y = some z ∧ z.magnitude = product x.magnitude y.magnitude := by
  have hnum : (x.mantissa * y.mantissa) <<< (x.exponent + y.exponent) = x.magnitude * y.magnitude := by
    rw [Nat.shiftLeft_eq, Nat.pow_add]
    exact Nat.mul_mul_mul_comm ..
  rw [mul?, hnum]
  exact exists_ofRatio? x.negative h

/-- A number is not made larger by dividing it by one that is at least one. -/
theorem exists_div? (hone : unit ≤ y.magnitude) (hn : rounded n unit ≤ n) (hlt : n < limit)
    (hx : x.magnitude ≤ n) : ∃ z, x.div? y = some z ∧ z.magnitude ≤ n := by
  have hle : rounded x.magnitude y.magnitude ≤ n :=
    Nat.le_trans (rounded_mono (Nat.lt_of_lt_of_le unit_pos hone) unit_pos
      (Nat.mul_le_mul hx hone)) hn
  obtain ⟨z, hz, hmagnitude⟩ := exists_ofRatio? x.negative (Nat.lt_of_le_of_lt hle hlt)
  rw [div?, Nat.shiftLeft_eq, Nat.shiftLeft_eq]
  exact ⟨z, hz, hmagnitude ▸ hle⟩

end Arithmetic

end SchemaForge.Binary64
