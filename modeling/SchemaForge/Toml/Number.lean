import SchemaForge.Instant.Basic
import SchemaForge.Toml.Quoted
import SchemaForge.Toml.Value

/-!
# Numbers and dates of TOML

Numbers may have underscores between their digits. Whole numbers fit in 64 bits, signed; other
numbers are rounded to binary64, and one that is too large is refused. Dates and times are checked
and kept as they are written.
-/

namespace SchemaForge.Toml

/-! ### Digits -/

/-- Digits after a first one; an underscore must stand between two of them. -/
def moreDigits (isDigit : Char → Bool) : List Char → Option (List Char × List Char)
  | [] => some ([], [])
  | ['_'] => none
  | '_' :: c :: rest => if isDigit c then prepend c (moreDigits isDigit rest) else none
  | c :: rest => if isDigit c then prepend c (moreDigits isDigit rest) else some ([], c :: rest)

/-- One digit or more. -/
def digits? (isDigit : Char → Bool) : List Char → Option (List Char × List Char)
  | [] => none
  | c :: rest => if isDigit c then prepend c (moreDigits isDigit rest) else none

/-- The digits of a whole number, which starts with zero only if it is zero. -/
def wholeDigits? : List Char → Option (List Char × List Char)
  | '0' :: rest => some (['0'], rest)
  | cs => digits? Char.isDigit cs

/-- The number that digits write. -/
def valueOf (base : Nat) (digits : List Char) : Nat :=
  digits.foldl (fun n c => base * n + (hexValue? [c]).getD 0) 0

/-- Whether there is a minus, and the characters after the sign. -/
def signed : List Char → Bool × List Char
  | '+' :: rest => (false, rest)
  | '-' :: rest => (true, rest)
  | cs => (false, cs)

/-! ### Numbers -/

/-- A whole number, if it fits. -/
def integer? (negative : Bool) (n : Nat) : Option Value :=
  let i : Int := if negative then -n else n
  if -0x8000000000000000 ≤ i ∧ i < 0x8000000000000000 then some (.integer i) else none

/-- A whole number in hexadecimal, octal or binary digits. -/
def based? (base : Nat) (isDigit : Char → Bool) (cs : List Char) : Option (Value × List Char) := do
  let (digits, rest) ← digits? isDigit cs
  return (← integer? false (valueOf base digits), rest)

/-- The number `± n * 10 ^ power`, rounded. -/
def rounded (negative : Bool) (n : Nat) (power : Int) : Real :=
  let magnitude := (Binary64.digitCount n : Int) + power
  if n = 0 ∨ magnitude < -400 then .finite (.zero negative)
  else if 400 < magnitude then .infinite negative
  else
    let nearest? :=
      if 0 ≤ power then Binary64.ofRatio? negative (n * Nat.pow 10 power.toNat) 1
      else Binary64.ofRatio? negative n (Nat.pow 10 (-power).toNat)
    match nearest? with
    | some x => .finite x
    | none => .infinite negative

/-- The digits after a point, if there is one. -/
def fraction? : List Char → Option (Option (List Char) × List Char)
  | '.' :: rest => (digits? Char.isDigit rest).map fun (ds, rest) => (some ds, rest)
  | cs => some (none, cs)

/-- The exponent, if there is one. -/
def exponent? : List Char → Option (Option Int × List Char)
  | c :: rest =>
    if c = 'e' ∨ c = 'E' then
      let (negative, rest) := signed rest
      (digits? Char.isDigit rest).map fun (ds, rest) =>
        (some (if negative then -(valueOf 10 ds : Int) else valueOf 10 ds), rest)
    else some (none, c :: rest)
  | [] => some (none, [])

/-- A number in decimal digits. -/
def decimal? (negative : Bool) (cs : List Char) : Option (Value × List Char) := do
  let (whole, rest) ← wholeDigits? cs
  let (fraction, rest) ← fraction? rest
  let (exponent, rest) ← exponent? rest
  if fraction.isNone ∧ exponent.isNone then
    return (← integer? negative (valueOf 10 whole), rest)
  let places := fraction.getD []
  let x := rounded negative (valueOf 10 (whole ++ places)) (exponent.getD 0 - places.length)
  if x = .infinite false then none else return (.real x, rest)

/-- A number. -/
def number? (cs : List Char) : Option (Value × List Char) :=
  match cs with
  | '0' :: 'x' :: rest => based? 16 (fun c => (hexValue? [c]).isSome) rest
  | '0' :: 'o' :: rest => based? 8 (fun c => '0' ≤ c && c ≤ '7') rest
  | '0' :: 'b' :: rest => based? 2 (fun c => c == '0' || c == '1') rest
  | cs =>
    match signed cs with
    | (negative, 'i' :: 'n' :: 'f' :: rest) => some (.real (.infinite negative), rest)
    | (_, 'n' :: 'a' :: 'n' :: rest) => some (.real .nan, rest)
    | (negative, cs) => decimal? negative cs

/-! ### Dates and times -/

/-- A number of so many digits. -/
def fixed? (width : Nat) (cs : List Char) : Option (Nat × List Char) :=
  let ds := cs.take width
  if ds.length = width ∧ ds.all Char.isDigit then some (valueOf 10 ds, cs.drop width) else none

/-- The characters after a given one. -/
def after? (c : Char) (cs : List Char) : Option (List Char) :=
  if cs.head? = some c then some (cs.drop 1) else none

/-- The characters after a date of the calendar. -/
def afterDate? (cs : List Char) : Option (List Char) := do
  let (year, rest) ← fixed? 4 cs
  let (month, rest) ← fixed? 2 (← after? '-' rest)
  let (day, rest) ← fixed? 2 (← after? '-' rest)
  if 1 ≤ month ∧ month ≤ 12 ∧ 1 ≤ day ∧ day ≤ daysInMonth year month then some rest else none

/-- The characters after a time of the day. -/
def afterTime? (cs : List Char) : Option (List Char) := do
  let (hour, rest) ← fixed? 2 cs
  let (minute, rest) ← fixed? 2 (← after? ':' rest)
  let (second, rest) ← fixed? 2 (← after? ':' rest)
  if hour ≤ 23 ∧ minute ≤ 59 ∧ second ≤ 60 then
    match rest with
    | '.' :: c :: later => if c.isDigit then some (later.dropWhile Char.isDigit) else some rest
    | _ => some rest
  else none

/-- The characters after the distance to universal time. -/
def afterOffset? (cs : List Char) : Option (List Char) :=
  match cs with
  | 'Z' :: rest | 'z' :: rest => some rest
  | '+' :: rest | '-' :: rest => do
    let (hour, rest) ← fixed? 2 rest
    let (minute, rest) ← fixed? 2 (← after? ':' rest)
    if hour ≤ 23 ∧ minute ≤ 59 then some rest else none
  | _ => none

/-- The characters after a date, a time or both. -/
def afterDateTime? (cs : List Char) : Option (List Char) :=
  match afterDate? cs with
  | none => afterTime? cs
  | some [] => some []
  | some (c :: rest) =>
    if c = 'T' ∨ c = 't' ∨ c = ' ' then
      match afterTime? rest with
      | some rest => some ((afterOffset? rest).getD rest)
      | none => some (c :: rest)
    else some (c :: rest)

/-- A date, a time or both. -/
def dateTime? (cs : List Char) : Option (Value × List Char) := do
  let rest ← afterDateTime? cs
  return (.dateTime (String.ofList (cs.take (cs.length - rest.length))), rest)

end SchemaForge.Toml
