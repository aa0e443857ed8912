import SchemaForge.Json.Lexeme
import SchemaForge.Proofs.Number.Rounding

/-!
# Scaling by powers of ten

Reading scales the significand of a number by a rounded power of ten. Scaling down always leads to a
number, and scaling up does unless the product is beyond the greatest number. Where that starts is
computed for each power of ten that matters; smaller significands follow, as rounding keeps order.
-/

namespace SchemaForge

open Binary64

namespace Json

/-! ### Scaling down -/

section Scale

variable {x y : Binary64} {power : Int}

theorem scale?_of_nonneg (hpos : 0 ≤ power) (hle : power ≤ 308) :
    scale? x power = powerOfTen? power.toNat >>= x.mul? := by
  rw [scale?, if_pos ⟨by omega, hle⟩, show power.natAbs = power.toNat by omega]
  simp only [if_pos hpos]

theorem scale?_of_neg (hneg : power < 0) (hle : -308 ≤ power) :
    scale? x power = powerOfTen? power.natAbs >>= x.div? := by
  rw [scale?, if_pos ⟨hle, by omega⟩]
  simp only [if_neg (Int.not_le.mpr hneg)]

/-- Scaling leads to a number of the format. -/
theorem formatted_scale? (hx : x.Formatted) (h : scale? x power = some y) : y.Formatted := by
  induction x, power using scale?.induct with
  | case1 x power hrange =>
    rw [scale?, if_pos hrange] at h
    obtain ⟨p, -, h⟩ := Option.bind_eq_some_iff.mp h
    split at h
    · exact formatted_ofRatio? h
    · exact formatted_ofRatio? h
  | case2 x power hrange hzero =>
    rw [scale?, if_neg hrange, if_pos hzero] at h
    exact Option.some.inj h ▸ hx
  | case3 x power hrange hzero hpos =>
    rw [scale?, if_neg hrange, if_neg hzero, if_pos hpos] at h
    cases h
  | case4 x power hrange hzero hpos ih =>
    rw [scale?, if_neg hrange, if_neg hzero, if_neg hpos] at h
    obtain ⟨p, -, h⟩ := Option.bind_eq_some_iff.mp h
    obtain ⟨z, hz, h⟩ := Option.bind_eq_some_iff.mp h
    exact ih z (formatted_ofRatio? hz) h

/-- The magnitude that a whole number is rounded to. -/
def magnitudeOf (n : Nat) : Nat := rounded n 1

theorem magnitudeOf_mono {m n : Nat} (h : m ≤ n) : magnitudeOf m ≤ magnitudeOf n :=
  rounded_mono Nat.one_pos Nat.one_pos (Nat.mul_le_mul_right 1 h)

/-- The magnitude that a power of ten is rounded to. -/
def magnitudeOfTen (n : Nat) : Nat := magnitudeOf (Nat.pow 10 n)

theorem magnitudeOfTen_mono {m n : Nat} (h : m ≤ n) : magnitudeOfTen m ≤ magnitudeOfTen n :=
  magnitudeOf_mono (Nat.pow_le_pow_right (by decide) h)

theorem magnitudeOfTen_zero : magnitudeOfTen 0 = unit := by decide +kernel

/-- The powers of ten that are scaled by are numbers, and at least one. -/
theorem exists_powerOfTen? {n : Nat} (h : n ≤ 308) :
    ∃ p, powerOfTen? n = some p ∧ p.magnitude = magnitudeOfTen n ∧ unit ≤ p.magnitude := by
  have hmost : magnitudeOfTen 308 < limit := by decide +kernel
  obtain ⟨p, hp, hmagnitude⟩ :=
    exists_ofRatio? false (Nat.lt_of_le_of_lt (magnitudeOfTen_mono h) hmost)
  refine ⟨p, hp, hmagnitude, ?_⟩
  rw [hmagnitude, ← magnitudeOfTen_zero]
  exact magnitudeOfTen_mono (Nat.zero_le n)

/-- A number is scaled up by multiplying it once, if the product is not too large. -/
theorem exists_scale?_of_product {n : Nat} (hn : n ≤ 308)
    (h : product x.magnitude (magnitudeOfTen n) < limit) : ∃ y, scale? x n = some y := by
  obtain ⟨p, hp, hmagnitude, -⟩ := exists_powerOfTen? hn
  obtain ⟨y, hy, -⟩ := exists_mul? (hmagnitude ▸ h)
  refine ⟨y, ?_⟩
  rw [scale?_of_nonneg (Int.natCast_nonneg n) (by omega), Int.toNat_natCast]
  exact Option.bind_eq_some_iff.mpr ⟨p, hp, hy⟩

/-- A bound that dividing by powers of ten keeps. -/
def ample : Nat := 1 <<< 1200

theorem exists_div_powerOfTen? (hx : x.magnitude ≤ ample) {n : Nat} (hn : n ≤ 308) :
    ∃ p, powerOfTen? n = some p ∧ ∃ z, x.div? p = some z ∧ z.magnitude ≤ ample := by
  obtain ⟨p, hp, -, hone⟩ := exists_powerOfTen? hn
  exact ⟨p, hp, exists_div? hone (by decide +kernel) (by decide +kernel) hx⟩

theorem exists_scale?_zero (hx : x.magnitude ≤ ample) : ∃ y, scale? x 0 = some y := by
  have hmost : product ample unit < limit := by decide +kernel
  apply exists_scale?_of_product (Nat.zero_le 308)
  rw [magnitudeOfTen_zero]
  exact Nat.lt_of_le_of_lt (product_mono hx (Nat.le_refl unit)) hmost

/-- A number is scaled down whatever the power. -/
theorem exists_scale?_of_nonpos (hx : x.magnitude ≤ ample) (hpower : power ≤ 0) :
    ∃ y, scale? x power = some y := by
  induction x, power using scale?.induct with
  | case1 x power hrange =>
    rcases Int.lt_or_eq_of_le hpower with hneg | rfl
    · obtain ⟨p, hp, y, hy, -⟩ := exists_div_powerOfTen? hx (show power.natAbs ≤ 308 by omega)
      refine ⟨y, ?_⟩
      rw [scale?_of_neg hneg hrange.1]
      exact Option.bind_eq_some_iff.mpr ⟨p, hp, hy⟩
    · exact exists_scale?_zero hx
  | case2 x power hrange hzero => exact ⟨x, by rw [scale?, if_neg hrange, if_pos hzero]⟩
  | case3 x power hrange hzero hpos => omega
  | case4 x power hrange hzero hpos ih =>
    obtain ⟨p, hp, z, hz, hle⟩ := exists_div_powerOfTen? hx (Nat.le_refl 308)
    obtain ⟨y, hy⟩ := ih z hle (by omega)
    refine ⟨y, ?_⟩
    rw [scale?, if_neg hrange, if_neg hzero, if_neg hpos]
    exact Option.bind_eq_some_iff.mpr ⟨p, hp, Option.bind_eq_some_iff.mpr ⟨z, hz, hy⟩⟩

/-! ### Powers that scale up -/

/-- Where the numbers below the greatest one end, in whole numbers. -/
def edge : Nat := 0x7FFFFFFFFFFFFA <<< 969

/-- The greatest significand of at most seventeen digits is not scaled beyond the numbers. -/
theorem product_most_lt : product (magnitudeOfTen 17) (magnitudeOfTen 291) < limit := by
  decide +kernel

/-- Nor are the greatest significands of numbers with more zeros. -/
theorem product_edge_lt : ∀ n < 17,
    product (magnitudeOf (edge / Nat.pow 10 (292 + n))) (magnitudeOfTen (292 + n)) < limit := by
  decide +kernel

theorem power_lt {n p q : Nat} (hn : 0 < n) (h : n * Nat.pow 10 p < Nat.pow 10 q) : p < q :=
  (Nat.pow_lt_pow_iff_right (by decide)).mp (Nat.lt_of_le_of_lt (Nat.le_mul_of_pos_left _ hn) h)

theorem exists_scale?_of_le {n p : Nat} (hx : x.magnitude = magnitudeOf n) (hn : 0 < n)
    (hmost : n ≤ Nat.pow 10 17) (hedge : n * Nat.pow 10 p ≤ edge) : ∃ y, scale? x p = some y := by
  have hfar : edge < Nat.pow 10 (292 + 17) := by decide +kernel
  have hp : p < 292 + 17 := power_lt hn (Nat.lt_of_le_of_lt hedge hfar)
  apply exists_scale?_of_product (Nat.le_of_lt_succ hp)
  rw [hx]
  by_cases hlow : p ≤ 291
  · apply Nat.lt_of_le_of_lt _ product_most_lt
    exact product_mono (magnitudeOf_mono hmost) (magnitudeOfTen_mono hlow)
  · obtain ⟨k, rfl⟩ : ∃ k, p = 292 + k := ⟨p - 292, by omega⟩
    apply Nat.lt_of_le_of_lt _ (product_edge_lt k (by omega))
    have hle : n ≤ edge / Nat.pow 10 (292 + k) :=
      (Nat.le_div_iff_mul_le (Nat.pow_pos (by decide))).mpr hedge
    exact product_mono (magnitudeOf_mono hle) (Nat.le_refl _)

end Scale

end Json

end SchemaForge
