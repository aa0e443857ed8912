import SchemaForge.Number.Shortest
import SchemaForge.Proofs.Number.Rounding

/-!
# Shortest texts have at most seventeen digits

A grid of seventeen digits is finer than the basin of any number, so a point of it lies in the basin
and the search for the shortest text ends. What it finds is not zero and within the basin.
-/

namespace SchemaForge.Binary64

/-! ### Digits and powers of ten -/

theorem digitCount_pos (n : Nat) : 0 < digitCount n := Nat.length_toDigits_pos

theorem lt_pow_digitCount (n : Nat) : n < 10 ^ digitCount n :=
  (Nat.length_toDigits_le_iff (by decide) (digitCount_pos n)).mp (Nat.le_refl _)

theorem pow_digitCount_le {n : Nat} (h : 0 < n) : 10 ^ (digitCount n - 1) ≤ n := by
  have hpos := digitCount_pos n
  by_cases hone : digitCount n = 1
  · rw [hone]
    exact h
  · by_contra hlt
    have hle : digitCount n ≤ digitCount n - 1 :=
      (Nat.length_toDigits_le_iff (by decide) (by omega)).mpr (Nat.lt_of_not_le hlt)
    omega

/-- The power of ten of `10 ^ power`, which is one for a fraction. -/
def tenUp (power : Int) : Nat := 10 ^ power.toNat

/-- The power of ten that `10 ^ power` is divided by, which is one for a whole number. -/
def tenDown (power : Int) : Nat := 10 ^ (-power).toNat

theorem tenUp_pos (power : Int) : 0 < tenUp power := Nat.pow_pos (by decide)

theorem tenDown_pos (power : Int) : 0 < tenDown power := Nat.pow_pos (by decide)

/-- A power of ten less, by its exponent. -/
theorem tenUp_sub (power : Int) (n : Nat) :
    tenUp (power - n) * 10 ^ n * tenDown power = tenUp power * tenDown (power - n) := by
  unfold tenUp tenDown
  rw [← pow_add, ← pow_add, ← pow_add]
  congr 1
  omega

/-- Is `10 ^ power` the power of ten of the first digit of `v / w`? -/
structure Leads (v w : Nat) (power : Int) : Prop where
  le : w * tenUp power ≤ v * tenDown power
  lt : v * tenDown power < w * tenUp power * 10

variable {v w : Nat}

/-- A fraction that is not below one has as many digits in front of the point as its whole part. -/
theorem leads_of_le (hw : 0 < w) (h : w ≤ v) : Leads v w ((digitCount (v / w) : Int) - 1) := by
  have hpos := digitCount_pos (v / w)
  have hup : tenUp (digitCount (v / w) - 1) = 10 ^ (digitCount (v / w) - 1) := by
    rw [tenUp]
    congr 1
    omega
  have hdown : tenDown (digitCount (v / w) - 1) = 1 := by
    rw [tenDown, show (-((digitCount (v / w) : Int) - 1)).toNat = 0 by omega, pow_zero]
  constructor
  · rw [hup, hdown, Nat.mul_one]
    calc w * 10 ^ (digitCount (v / w) - 1) ≤ w * (v / w) :=
          Nat.mul_le_mul_left w (pow_digitCount_le (Nat.div_pos h hw))
      _ ≤ v := Nat.mul_div_le v w
  · rw [hup, hdown, Nat.mul_one, Nat.mul_assoc, ← pow_succ, Nat.sub_add_cancel hpos, Nat.mul_comm]
    exact (Nat.div_lt_iff_lt_mul hw).mp (lt_pow_digitCount _)

/-- The first digit of a fraction is found from a whole number that is below its inverse and the
greatest one there. -/
theorem leads_of_inverse {c : Nat} (hc : 0 < c) (hbelow : c * v < w) (habove : w ≤ (c + 1) * v) :
    Leads v w (-(digitCount c : Int)) := by
  have hpos := digitCount_pos c
  have hup : tenUp (-(digitCount c : Int)) = 1 := by
    rw [tenUp, show (-(digitCount c : Int)).toNat = 0 by omega, pow_zero]
  have hdown : tenDown (-(digitCount c : Int)) = 10 ^ digitCount c := by
    rw [tenDown, Int.neg_neg, Int.toNat_natCast]
  constructor
  · rw [hup, hdown, Nat.mul_one, Nat.mul_comm]
    exact Nat.le_trans habove (Nat.mul_le_mul_right v (lt_pow_digitCount c))
  · rw [hup, hdown, Nat.mul_one]
    calc v * 10 ^ digitCount c = 10 ^ (digitCount c - 1) * v * 10 := by
          rw [Nat.mul_right_comm, ← pow_succ, Nat.sub_add_cancel hpos, Nat.mul_comm]
      _ ≤ c * v * 10 := Nat.mul_le_mul_right 10 (Nat.mul_le_mul_right v (pow_digitCount_le hc))
      _ < w * 10 := Nat.mul_lt_mul_of_pos_right hbelow (by decide)

theorem leads_leadingPower (hv : 0 < v) (hw : 0 < w) : Leads v w (leadingPower v w) := by
  unfold leadingPower
  split
  · next hle => exact leads_of_le hw hle
  · next hlt =>
    -- the greatest whole number below `w / v` is one less than the next one from it
    have hceil : (w + v - 1) / v - 1 + 1 = (w + v - 1) / v := by
      have htwo : 2 ≤ (w + v - 1) / v := (Nat.le_div_iff_mul_le hv).mpr (by omega)
      omega
    have hbelow : ((w + v - 1) / v - 1) * v < w := by
      have hle := Nat.div_mul_le_self (w + v - 1) v
      rw [← hceil, Nat.add_mul] at hle
      omega
    have habove : w ≤ ((w + v - 1) / v - 1 + 1) * v := by
      have hle := Nat.lt_div_mul_add hv (a := w + v - 1)
      rw [← hceil] at hle
      omega
    refine leads_of_inverse (Nat.pos_of_ne_zero fun hzero => ?_) hbelow habove
    rw [hzero] at habove
    omega

namespace Leads

variable {power : Int}

/-- As many digits as a finer grid has. -/
theorem le_finer (h : Leads v w power) (n : Nat) :
    w * tenUp (power - n) * 10 ^ n ≤ v * tenDown (power - n) := by
  apply Nat.le_of_mul_le_mul_right _ (tenDown_pos power)
  calc w * tenUp (power - n) * 10 ^ n * tenDown power
      = w * (tenUp (power - n) * 10 ^ n * tenDown power) := by
        rw [Nat.mul_assoc, Nat.mul_assoc, Nat.mul_assoc]
    _ = w * tenUp power * tenDown (power - n) := by rw [tenUp_sub, Nat.mul_assoc]
    _ ≤ v * tenDown power * tenDown (power - n) := Nat.mul_le_mul_right _ h.le
    _ = v * tenDown (power - n) * tenDown power := Nat.mul_right_comm ..

theorem lt_finer (h : Leads v w power) (n : Nat) :
    v * tenDown (power - n) < w * tenUp (power - n) * 10 ^ (n + 1) := by
  apply Nat.lt_of_mul_lt_mul_right (a := tenDown power)
  calc v * tenDown (power - n) * tenDown power = v * tenDown power * tenDown (power - n) :=
        Nat.mul_right_comm ..
    _ < w * tenUp power * 10 * tenDown (power - n) :=
        Nat.mul_lt_mul_of_pos_right h.lt (tenDown_pos _)
    _ = w * (tenUp power * tenDown (power - n)) * 10 := by
        rw [Nat.mul_right_comm, Nat.mul_assoc w]
    _ = w * tenUp (power - n) * 10 ^ (n + 1) * tenDown power := by
        rw [← tenUp_sub, pow_succ]
        ac_rfl

end Leads

/-! ### Points of a grid -/

section Grid

variable {b : Basin} {power : Int} {d : Decimal}

/-- The unit of basins, by which one is `2 ^ 1076`. -/
def quarter : Nat := 1 <<< 1076

theorem quarter_pos : 0 < quarter := by decide

/-- The step of the grid, and what it is a step of, where `10 ^ power` is a fraction. -/
theorem step_eq (power : Int) :
    (if 0 ≤ power then Nat.pow 10 power.toNat else 1) <<< 1076 = quarter * tenUp power := by
  have hup : (if 0 ≤ power then Nat.pow 10 power.toNat else 1) = tenUp power := by
    split
    · rfl
    · next hneg => rw [tenUp, show power.toNat = 0 by omega, pow_zero]
  rw [hup, quarter, Nat.shiftLeft_eq, Nat.one_shiftLeft, Nat.mul_comm]

theorem parts_eq (power : Int) :
    (if 0 ≤ power then 1 else Nat.pow 10 (-power).toNat) = tenDown power := by
  split
  · next hpos => rw [tenDown, show (-power).toNat = 0 by omega, pow_zero]
  · rfl

/-- Does a point of the grid of step `10 ^ power` lie in the basin? -/
def Basin.contains (b : Basin) (power : Int) (n : Nat) : Bool :=
  if b.closed then
    b.low * tenDown power ≤ n * (quarter * tenUp power) &&
      n * (quarter * tenUp power) ≤ b.high * tenDown power
  else
    b.low * tenDown power < n * (quarter * tenUp power) &&
      n * (quarter * tenUp power) < b.high * tenDown power

/-- The point of the grid next to the value, from below. -/
def Basin.floor (b : Basin) (power : Int) : Nat := b.value * tenDown power / (quarter * tenUp power)

theorem Basin.le_of_contains {n : Nat} (h : b.contains power n) :
    b.low * tenDown power ≤ n * (quarter * tenUp power) ∧
      n * (quarter * tenUp power) ≤ b.high * tenDown power := by
  unfold contains at h
  split at h
  · simpa using h
  · simp only [Bool.and_eq_true, decide_eq_true_eq] at h
    exact ⟨Nat.le_of_lt h.1, Nat.le_of_lt h.2⟩

theorem onGrid_eq (b : Basin) (power : Int) :
    onGrid b power =
      (let step := quarter * tenUp power
      let d := b.floor power
      let left := b.value * tenDown power - d * step
      let right := (d + 1) * step - b.value * tenDown power
      if b.contains power d && b.contains power (d + 1) then
        if left < right || (left == right && d % 2 == 0) then some ⟨d, power⟩
        else some ⟨d + 1, power⟩
      else if b.contains power d then some ⟨d, power⟩
      else if b.contains power (d + 1) then some ⟨d + 1, power⟩
      else none) := by
  unfold onGrid
  rw [step_eq, parts_eq]
  rfl

/-- A point that is found is next to the value and lies in the basin. -/
theorem of_onGrid (h : onGrid b power = some d) :
    d.power = power ∧ d.digits ≤ b.floor power + 1 ∧ b.contains power d.digits := by
  rw [onGrid_eq] at h
  dsimp only at h
  split at h
  · next hboth =>
    obtain ⟨hfloor, hceil⟩ := Bool.and_eq_true_iff.mp hboth
    split at h
    · obtain rfl := Option.some.inj h
      exact ⟨rfl, Nat.le_succ _, hfloor⟩
    · obtain rfl := Option.some.inj h
      exact ⟨rfl, Nat.le_refl _, hceil⟩
  · split at h
    · next hfloor =>
      obtain rfl := Option.some.inj h
      exact ⟨rfl, Nat.le_succ _, hfloor⟩
    · split at h
      · next hceil =>
        obtain rfl := Option.some.inj h
        exact ⟨rfl, Nat.le_refl _, hceil⟩
      · cases h

/-- A basin that is wider than a step of the grid has a point of it. -/
theorem onGrid_ne_none (hlow : b.low ≤ b.value) (hhigh : b.value < b.high)
    (hwide : quarter * tenUp power < (b.high - b.low) * tenDown power) :
    onGrid b power ≠ none := by
  have hstep : 0 < quarter * tenUp power := Nat.mul_pos quarter_pos (tenUp_pos power)
  have hfloor : b.floor power * (quarter * tenUp power) ≤ b.value * tenDown power :=
    Nat.div_mul_le_self _ _
  have hceil : b.value * tenDown power < (b.floor power + 1) * (quarter * tenUp power) := by
    rw [Nat.add_mul, Nat.one_mul]
    exact Nat.lt_div_mul_add hstep
  have hvalue : b.low * tenDown power ≤ b.value * tenDown power := Nat.mul_le_mul_right _ hlow
  have hvalue' : b.value * tenDown power < b.high * tenDown power :=
    Nat.mul_lt_mul_of_pos_right hhigh (tenDown_pos power)
  rw [Nat.sub_mul] at hwide
  rw [Nat.add_mul, Nat.one_mul] at hceil
  -- the points next to the value cannot both be outside, one step apart
  have hsome : b.contains power (b.floor power) ∨ b.contains power (b.floor power + 1) := by
    unfold Basin.contains
    rw [Nat.add_mul, Nat.one_mul]
    split
    · simp only [Bool.and_eq_true, decide_eq_true_eq]
      omega
    · simp only [Bool.and_eq_true, decide_eq_true_eq]
      omega
  rw [onGrid_eq]
  dsimp only
  rcases hsome with h | h
  · rw [h, Bool.true_and]
    split
    · split <;> exact nofun
    · exact nofun
  · rw [h, Bool.and_true]
    split
    · split <;> exact nofun
    · exact nofun

end Grid

/-! ### The search -/

section Search

variable {x : Binary64}

/-- What is known of the basin of a number that is not zero: its ends, and that it is at least as
wide as the last of seventeen digits. -/
theorem basin_spec (h : x.Formatted) (hx : 0 < x.mantissa) :
    0 < x.basin.low ∧ x.basin.low ≤ x.basin.value ∧
      x.basin.high = (4 * x.mantissa + 2) * 2 ^ x.exponent ∧ x.basin.value < x.basin.high ∧
      x.basin.value < (x.basin.high - x.basin.low) * 10 ^ 16 := by
  have hlt := h.mantissa_lt
  have hunit := Nat.two_pow_pos x.exponent
  -- everything counts in units of the last digit
  obtain ⟨u, hu⟩ : ∃ u, u = 2 ^ x.exponent := ⟨_, rfl⟩
  have hleast : u ≤ x.mantissa * u := Nat.le_mul_of_pos_left u hx
  have hmost : x.mantissa * u + u ≤ 0x20000000000000 * u := by
    rw [← Nat.succ_mul]
    exact Nat.mul_le_mul_right u hlt
  unfold basin
  dsimp only
  rw [Nat.one_shiftLeft, ← hu, Nat.mul_assoc 4, Nat.add_mul, Nat.mul_assoc 4]
  rw [← hu] at hunit
  split
  · next hpower =>
    simp only [Bool.and_eq_true, decide_eq_true_eq] at hpower
    rw [hpower.1]
    omega
  · omega

theorem shortest_spec (h : x.Formatted) (hx : 0 < x.mantissa) :
    ∃ n < 17, onGrid x.basin (leadingPower x.basin.value quarter - (n : Nat)) = some x.shortest := by
  obtain ⟨hlow, hvalue, -, hhigh, hwide⟩ := basin_spec h hx
  have hleads := leads_leadingPower (Nat.lt_of_lt_of_le hlow hvalue) quarter_pos
  -- at the seventeenth digit the grid is finer than the basin is wide, so the search finds one
  have hlast : onGrid x.basin (leadingPower x.basin.value quarter - (16 : Nat)) ≠ none := by
    apply onGrid_ne_none hvalue hhigh
    apply Nat.lt_of_mul_lt_mul_right (a := 10 ^ 16)
    calc quarter * tenUp (leadingPower x.basin.value quarter - (16 : Nat)) * 10 ^ 16
        ≤ x.basin.value * tenDown (leadingPower x.basin.value quarter - (16 : Nat)) :=
          hleads.le_finer 16
      _ < (x.basin.high - x.basin.low) * 10 ^ 16 *
            tenDown (leadingPower x.basin.value quarter - (16 : Nat)) :=
          Nat.mul_lt_mul_of_pos_right hwide (tenDown_pos _)
      _ = _ := Nat.mul_right_comm ..
  unfold shortest
  dsimp only
  rw [← quarter]
  cases hfound : (List.range 17).findSome? fun n : Nat =>
      onGrid x.basin (leadingPower x.basin.value quarter - n) with
  | none =>
    rw [List.findSome?_eq_none_iff] at hfound
    exact absurd (hfound 16 (List.mem_range.mpr (by decide))) hlast
  | some d =>
    obtain ⟨n, hn, hd⟩ := List.exists_of_findSome?_eq_some hfound
    exact ⟨n, List.mem_range.mp hn, hd⟩

/-- The shortest text of a number has a digit other than zero and at most seventeen. -/
theorem digits_shortest (h : x.Formatted) (hx : 0 < x.mantissa) :
    0 < x.shortest.digits ∧ x.shortest.digits ≤ 10 ^ 17 := by
  obtain ⟨hlow, hvalue, -⟩ := basin_spec h hx
  obtain ⟨n, hn, hgrid⟩ := shortest_spec h hx
  obtain ⟨hpower, hdigits, hcontains⟩ := of_onGrid hgrid
  have hleads := leads_leadingPower (Nat.lt_of_lt_of_le hlow hvalue) quarter_pos
  constructor
  · have hle := (Basin.le_of_contains hcontains).1
    apply Nat.pos_of_ne_zero
    intro hzero
    rw [hzero, Nat.zero_mul] at hle
    exact Nat.not_le_of_lt (Nat.mul_pos hlow (tenDown_pos _)) hle
  · have hfloor : x.basin.floor (leadingPower x.basin.value quarter - n) < 10 ^ (n + 1) :=
      Nat.div_lt_of_lt_mul (hleads.lt_finer n)
    have hpow : 10 ^ (n + 1) ≤ 10 ^ 17 := Nat.pow_le_pow_right (by decide) hn
    omega

/-- A whole number of few digits and many zeros is not beyond the basin. -/
theorem shortest_le (h : x.Formatted) (hx : 0 < x.mantissa) (hpower : 0 ≤ x.shortest.power) :
    x.shortest.digits * 10 ^ x.shortest.power.toNat * quarter ≤
      (4 * x.mantissa + 2) * 2 ^ x.exponent := by
  obtain ⟨-, -, hhigh, -⟩ := basin_spec h hx
  obtain ⟨n, -, hgrid⟩ := shortest_spec h hx
  obtain ⟨heq, -, hcontains⟩ := of_onGrid hgrid
  have hle := (Basin.le_of_contains hcontains).2
  rw [← heq, hhigh, tenDown, show (-x.shortest.power).toNat = 0 by omega, pow_zero, Nat.mul_one,
    tenUp, Nat.mul_comm quarter, ← Nat.mul_assoc] at hle
  exact hle

end Search

end SchemaForge.Binary64
