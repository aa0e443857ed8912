import SchemaForge.Text.Utf8

/-!
# Numbers in an archive

An archive writes numbers in a fixed count of bytes, the lowest first.
-/

namespace SchemaForge.Archive

/-- The lowest `width` bytes of a number, the lowest first. -/
def number : Nat → Nat → Bytes
  | 0, _ => []
  | width + 1, n => UInt8.ofNat n :: number width (n / 256)

/-- The number that the bytes write. -/
def value : Bytes → Nat
  | [] => 0
  | b :: rest => b.toNat + 256 * value rest

@[simp]
theorem length_number (width n : Nat) : (number width n).length = width := by
  induction width generalizing n with
  | zero => rfl
  | succ width ih => simp [number, ih]

theorem value_number {width n : Nat} (h : n < Nat.pow 256 width) : value (number width n) = n := by
  induction width generalizing n with
  | zero => simp at h; simp [number, value, h]
  | succ width ih =>
    have hdiv : n / 256 < Nat.pow 256 width := by
      rw [Nat.div_lt_iff_lt_mul (by decide)]
      exact h
    simp only [number, value, ih hdiv, UInt8.toNat_ofNat']
    omega

end SchemaForge.Archive
