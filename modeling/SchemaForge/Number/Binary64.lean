/-!
# Binary64 numbers

Finite numbers of the format binary64, held exactly: a sign, a whole mantissa and a power of two.
Arithmetic is that of whole numbers followed by one rounding, to the nearest number of the format and
to the even mantissa of two that are as near. `none` stands for a result beyond the largest number.
-/

namespace SchemaForge

/-- The number `± mantissa * 2 ^ (exponent - 1074)`. -/
structure Binary64 where
  negative : Bool
  mantissa : Nat
  exponent : Nat
  deriving DecidableEq, Repr

namespace Binary64

/-- The whole number nearest to `num / den`; of two as near, the even one. -/
def roundHalfEven (num den : Nat) : Nat :=
  let q := num / den
  let twice := 2 * (num % den)
  if den < twice || (twice == den && q % 2 == 1) then q + 1 else q

/-- The number nearest to `num / den`. -/
def ofRatio? (negative : Bool) (num den : Nat) : Option Binary64 :=
  let scaled := num <<< 1074
  let e := (scaled / den).log2 - 52
  let m := roundHalfEven scaled (den <<< e)
  let x : Binary64 := if m = 0x20000000000000 then ⟨negative, 0x10000000000000, e + 1⟩ else ⟨negative, m, e⟩
  if x.exponent ≤ 2045 then some x else none

/-- Zero with the given sign. -/
def zero (negative : Bool) : Binary64 := ⟨negative, 0, 0⟩

/-- Is the number zero, of either sign? -/
def isZero (x : Binary64) : Bool := x.mantissa == 0

/-- The nearest number to a power of ten. -/
def powerOfTen? (n : Nat) : Option Binary64 := ofRatio? false (Nat.pow 10 n) 1

/-- The product, rounded; the sign is that of the first factor. -/
def mul? (x y : Binary64) : Option Binary64 :=
  ofRatio? x.negative ((x.mantissa * y.mantissa) <<< (x.exponent + y.exponent)) (1 <<< 2148)

/-- The quotient, rounded; the sign is that of the dividend. -/
def div? (x y : Binary64) : Option Binary64 :=
  ofRatio? x.negative (x.mantissa <<< x.exponent) (y.mantissa <<< y.exponent)

example : ofRatio? false 1 10 = some ⟨false, 0x1999999999999A, 1018⟩ := by decide +kernel

end Binary64

end SchemaForge
