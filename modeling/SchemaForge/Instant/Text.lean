import SchemaForge.Instant.Basic
import SchemaForge.Instant.Error
import SchemaForge.Text.Blank

/-!
# Instants as text

Instants are written as RFC 3339 gives them, in universal time. Reading is lenient: blanks may stand
between the parts, numbers need no leading zeros, and any offset from universal time is accepted.
-/

namespace SchemaForge.Instant

/-! ### Writing -/

/-- The decimal digits of a number, at least `width` of them. -/
def padded (width n : Nat) : List Char :=
  let ds := Nat.toDigits 10 n
  List.replicate (width - ds.length) '0' ++ ds

/-- A year: four digits, or a sign and at least four digits outside the years 0 to 9999. -/
def yearChars (year : Int) : List Char :=
  if 0 ≤ year ∧ year ≤ 9999 then padded 4 year.toNat
  else (if year < 0 then '-' else '+') :: padded 4 year.natAbs

/-- A fraction of a second with three, six or nine digits, or nothing where it is zero. -/
def fractionChars (nanosecond : Nat) : List Char :=
  if nanosecond = 0 then []
  else if nanosecond % 1000000 = 0 then '.' :: padded 3 (nanosecond / 1000000)
  else if nanosecond % 1000 = 0 then '.' :: padded 6 (nanosecond / 1000)
  else '.' :: padded 9 nanosecond

/-- The text of an instant. -/
def render (t : Instant) : String :=
  String.ofList <|
    yearChars t.date.year ++ '-' :: padded 2 t.date.month ++ '-' :: padded 2 t.date.day
      ++ 'T' :: padded 2 (t.minutes / 60) ++ ':' :: padded 2 (t.minutes % 60)
      ++ ':' :: padded 2 t.second ++ fractionChars t.nanosecond ++ ['Z']

/-! ### Reading

The reader of a part answers its value and the characters after it. -/

/-- The value of a run of decimal digits. -/
def decimal (ds : List Char) : Nat := ds.foldl (fun n d => 10 * n + (d.toNat - '0'.toNat)) 0

/-- The characters after leading blanks. -/
def skipBlanks (cs : List Char) : List Char := cs.dropWhile Text.isBlank

/-- A number of at least one and, where `most` gives a bound, at most so many digits. -/
def number (most : Option Nat) (cs : List Char) : Except InstantError (Nat × List Char) :=
  let window := match most with
    | some n => cs.take n
    | none => cs
  let ds := window.takeWhile Char.isDigit
  if cs.isEmpty then .error .tooShort
  else if ds.isEmpty then .error .invalid
  else .ok (decimal ds, cs.drop ds.length)

/-- A number of one or two digits, within bounds, after blanks. -/
def field (least most : Nat) (cs : List Char) : Except InstantError (Nat × List Char) := do
  let (n, rest) ← number (some 2) (skipBlanks cs)
  if least ≤ n && n ≤ most then return (n, rest) else throw .outOfRange

/-- A mark between two parts, after blanks. -/
def mark (c : Char) (cs : List Char) : Except InstantError (List Char) :=
  match skipBlanks cs with
  | [] => .error .tooShort
  | d :: rest => if d = c then .ok rest else .error .invalid

/-- A year: up to four digits, or a sign and any number of digits. -/
def year (cs : List Char) : Except InstantError (Int × List Char) :=
  match skipBlanks cs with
  | '-' :: rest => do
    let (n, rest) ← number none rest
    if n ≤ 0x80000000 then return (-n, rest) else throw .outOfRange
  | '+' :: rest => do
    let (n, rest) ← number none rest
    if n < 0x80000000 then return (n, rest) else throw .outOfRange
  | rest => do
    let (n, rest) ← number (some 4) rest
    return (n, rest)

/-- A fraction of a second in nanoseconds; digits after the ninth are dropped. -/
def fraction (cs : List Char) : Except InstantError (Nat × List Char) :=
  match cs with
  | '.' :: rest => do
    let (n, after) ← number (some 9) rest
    let used := rest.length - after.length
    return (n * Nat.pow 10 (9 - used), after.dropWhile Char.isDigit)
  | _ => .ok (0, cs)

/-- Two characters at the start; too short where not even two bytes are left. -/
def two (cs : List Char) : Except InstantError (Char × Char × List Char) :=
  match cs with
  | c :: d :: rest => .ok (c, d, rest)
  | [c] => if c.toNat < 0x80 then .error .tooShort else .error .invalid
  | [] => .error .tooShort

/-- The hours and minutes of an offset, in minutes, with colons or blanks between them. -/
def offsetMinutes (cs : List Char) : Except InstantError (Nat × List Char) := do
  let (h₁, h₂, rest) ← two cs
  if !(h₁.isDigit && h₂.isDigit) then throw .invalid
  let (m₁, m₂, rest) ← two (rest.dropWhile fun c => c == ':' || Text.isBlank c)
  if !(m₁.isDigit && m₂.isDigit) then throw .invalid
  if '5' < m₁ then throw .outOfRange
  return (decimal [h₁, h₂] * 60 + decimal [m₁, m₂], rest)

/-- The offset from universal time, in minutes. -/
def offset (cs : List Char) : Except InstantError (Int × List Char) :=
  if (cs.take 3).map Char.toUpper == ['U', 'T', 'C'] then .ok (0, cs.drop 3)
  else
    match cs with
    | [] => .error .tooShort
    | c :: rest =>
      if c == 'Z' || c == 'z' then .ok (0, rest)
      else if c == '+' then (offsetMinutes rest).map fun (n, after) => ((n : Int), after)
      else if c == '-' || c == '\u2212' then
        (offsetMinutes rest).map fun (n, after) => (-(n : Int), after)
      else .error .invalid

/-- The sign between a date and a time: a T or one blank. -/
def separator (cs : List Char) : Except InstantError (List Char) :=
  match cs with
  | [] => .error .tooShort
  | c :: rest => if c == 'T' || c == 't' || c == ' ' then .ok rest else .error .invalid

/-- The instant that a text shows. -/
def parse (s : String) : Except InstantError Instant := do
  let (y, cs) ← year s.toList
  let (mo, cs) ← field 1 12 (← mark '-' cs)
  let (d, cs) ← field 1 31 (← mark '-' cs)
  let cs ← separator cs
  let (h, cs) ← field 0 23 cs
  let (mi, cs) ← field 0 59 (← mark ':' cs)
  let (sec, cs) ← field 0 60 (← mark ':' cs)
  let (nano, cs) ← fraction cs
  let (shift, cs) ← offset (skipBlanks cs)
  if !(skipBlanks cs).isEmpty then throw .tooLong
  let some date := Date.ofParts? y mo d | throw .outOfRange
  if 1440 ≤ shift.natAbs then throw .outOfRange
  if h₁ : sec ≤ 60 then
    if h₂ : nano < 1000000000 then
      match Instant.ofLocal? date (h * 60 + mi) sec nano shift h₁ h₂ with
      | some t => return t
      | none => throw .impossible
    else throw .outOfRange
  else throw .outOfRange

end SchemaForge.Instant
