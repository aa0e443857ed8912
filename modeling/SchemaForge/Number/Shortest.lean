import SchemaForge.Number.Binary64

/-!
# Shortest decimal text of a number

A binary64 number is written with the fewest digits that read back as the same number, and of the
texts with as few digits the one nearest to it. For each count of digits the two points of that
decimal grid next to the number are tried, in whole-number arithmetic. Where the digits are placed
plainly and where an exponent follows is a matter of the format that prints them.
-/

namespace SchemaForge.Binary64

/-- How many decimal digits a number has; zero has one. -/
def digitCount (n : Nat) : Nat := (Nat.toDigits 10 n).length

/-- The power of ten of the first digit of the positive number `v / w`. -/
def leadingPower (v w : Nat) : Int :=
  if w ≤ v then (digitCount (v / w) : Int) - 1
  else -(digitCount ((w + v - 1) / v - 1) : Int)

/-- A decimal number `digits * 10 ^ power`. -/
structure Decimal where
  digits : Nat
  power : Int
  deriving DecidableEq, Repr

/-- The numbers that round to a positive binary64 number, in units of `2 ^ -1076`. -/
structure Basin where
  value : Nat
  low : Nat
  high : Nat
  /-- Do the two ends round to the number as well? -/
  closed : Bool

/-- The numbers that round to `x`: half way to each neighbour, and the one below is nearer at a power
of two. -/
def basin (x : Binary64) : Basin :=
  let unit := 1 <<< x.exponent
  let value := 4 * x.mantissa * unit
  let below := if x.mantissa = 0x10000000000000 && 0 < x.exponent then unit else 2 * unit
  { value, low := value - below, high := value + 2 * unit, closed := x.mantissa % 2 == 0 }

/-- The point of the grid of step `10 ^ power` nearest to the number and within its basin. -/
def onGrid (b : Basin) (power : Int) : Option Decimal :=
  let up := (if 0 ≤ power then Nat.pow 10 power.toNat else 1) <<< 1076
  let down := if 0 ≤ power then 1 else Nat.pow 10 (-power).toNat
  let within (d : Nat) : Bool :=
    if b.closed then b.low * down ≤ d * up && d * up ≤ b.high * down
    else b.low * down < d * up && d * up < b.high * down
  let d := b.value * down / up
  let left := b.value * down - d * up
  let right := (d + 1) * up - b.value * down
  if within d && within (d + 1) then
    if left < right || (left == right && d % 2 == 0) then some ⟨d, power⟩ else some ⟨d + 1, power⟩
  else if within d then some ⟨d, power⟩
  else if within (d + 1) then some ⟨d + 1, power⟩
  else none

/-- The shortest decimal number that reads back as the magnitude of `x`, which is not zero. -/
def shortest (x : Binary64) : Decimal :=
  let b := x.basin
  let first := leadingPower b.value (1 <<< 1076)
  ((List.range 17).findSome? fun n : Nat => onGrid b (first - n)).getD ⟨0, 0⟩

/-- The digits of a decimal number without the zeros at their end, and the power of ten of the first
of them. -/
def Decimal.leading (d : Decimal) : List Char × Int :=
  let all := Nat.toDigits 10 d.digits
  let kept := (all.reverse.dropWhile (· == '0')).reverse
  (kept, d.power + (all.length : Int) - 1)

/-- The digits `ds` with the point after the digit of power zero, the first having power `first`. -/
def placed (ds : List Char) (first : Int) : List Char :=
  if first < 0 then ['0', '.'] ++ List.replicate ((-first).toNat - 1) '0' ++ ds
  else
    let whole := first.toNat + 1
    let padded := ds ++ List.replicate (whole - ds.length) '0'
    let fraction := ds.drop whole
    padded.take whole ++ '.' :: if fraction.isEmpty then ['0'] else fraction

/-- The digits `ds` with a point after the first, and the power of the first as an exponent. -/
def scientific (ds : List Char) (first : Int) : List Char :=
  let tail := ds.drop 1
  ds.take 1 ++ (if tail.isEmpty then [] else '.' :: tail)
    ++ ['e', if first < 0 then '-' else '+'] ++ Nat.toDigits 10 first.natAbs

/-- The text of a number, placed plainly where `plain` says so of the power of its first digit. -/
def render (plain : Int → Bool) (x : Binary64) : String :=
  let sign := if x.negative then ['-'] else []
  let body :=
    if x.isZero then ['0', '.', '0']
    else
      let (ds, first) := x.shortest.leading
      if plain first then placed ds first else scientific ds first
  String.ofList (sign ++ body)

end SchemaForge.Binary64
