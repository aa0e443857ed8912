/-!
# Characters and strings of TOML

Strings stand between quotation marks, where a backslash starts an escape, or between apostrophes,
where it does not; three of either make a string that goes over lines.
-/

namespace SchemaForge.Toml

/-- A character before the characters read. -/
def prepend (c : Char) (r : Option (List Char × List Char)) : Option (List Char × List Char) :=
  r.map fun (cs, rest) => (c :: cs, rest)

/-- Is the character a space or a tab? -/
def isBlank (c : Char) : Bool := c == ' ' || c == '\t'

/-- May the character stand in a line? Control characters other than the tab may not. -/
def inLine (c : Char) : Bool := c == '\t' || ('\x20' ≤ c && c ≤ '\x7e') || '\x80' ≤ c

/-- The value of hexadecimal digits. -/
def hexValue? (cs : List Char) : Option Nat :=
  cs.foldlM (fun n c =>
    if c.isDigit then some (16 * n + (c.toNat - '0'.toNat))
    else if 'a' ≤ c ∧ c ≤ 'f' then some (16 * n + (c.toNat - 'a'.toNat + 10))
    else if 'A' ≤ c ∧ c ≤ 'F' then some (16 * n + (c.toNat - 'A'.toNat + 10))
    else none) 0

/-- The character whose number is written in the first `width` characters. -/
def numbered? (width : Nat) (cs : List Char) : Option Char := do
  let digits := cs.take width
  let n ← hexValue? digits
  if digits.length = width ∧ n.isValidChar then return Char.ofNat n else none

/-- What the characters after a backslash stand for, and how many of them there are. -/
def escape? : List Char → Option (Char × Nat)
  | 'b' :: _ => some ('\x08', 1)
  | 't' :: _ => some ('\t', 1)
  | 'n' :: _ => some ('\n', 1)
  | 'f' :: _ => some ('\x0c', 1)
  | 'r' :: _ => some ('\r', 1)
  | '"' :: _ => some ('"', 1)
  | '\\' :: _ => some ('\\', 1)
  | 'u' :: rest => (numbered? 4 rest).map (·, 5)
  | 'U' :: rest => (numbered? 8 rest).map (·, 9)
  | _ => none

/-- The rest of a string in quotation marks. -/
def basicRest (cs : List Char) : Option (List Char × List Char) :=
  match cs with
  | [] => none
  | c :: rest =>
    if c = '"' then some ([], rest)
    else if c = '\\' then
      match escape? rest with
      | some (e, n) => prepend e (basicRest (rest.drop n))
      | none => none
    else if inLine c then prepend c (basicRest rest)
    else none
termination_by cs.length
decreasing_by all_goals (simp only [List.length_drop, List.length_cons]; omega)

/-- The rest of a string in apostrophes. -/
def literalRest : List Char → Option (List Char × List Char)
  | [] => none
  | c :: rest =>
    if c = '\'' then some ([], rest)
    else if inLine c then prepend c (literalRest rest)
    else none

/-- How many characters at the front are blanks and line breaks. -/
def breakLength : List Char → Nat
  | '\r' :: '\n' :: rest => 2 + breakLength rest
  | c :: rest => if isBlank c || c == '\n' then 1 + breakLength rest else 0
  | [] => 0

/-- The length of what a backslash at the end of a line joins away. -/
def joinedLength? (cs : List Char) : Option Nat :=
  let n := breakLength cs
  if (cs.take n).contains '\n' then some n else none

/-- The rest of a string over lines. Up to two quotes before the closing three belong to it. -/
def longRest (quote : Char) (escapes : Bool) (cs : List Char) : Option (List Char × List Char) :=
  match cs with
  | [] => none
  | c :: rest =>
    if c = quote then
      let run := 1 + (rest.takeWhile (· == quote)).length
      if run < 3 then prepend quote (longRest quote escapes rest)
      else
        let kept := min run 5 - 3
        some (List.replicate kept quote, rest.drop (kept + 2))
    else if c = '\n' then prepend '\n' (longRest quote escapes rest)
    else if c = '\r' then
      if rest.head? = some '\n' then prepend '\n' (longRest quote escapes (rest.drop 1)) else none
    else if escapes ∧ c = '\\' then
      match joinedLength? rest with
      | some n => longRest quote escapes (rest.drop n)
      | none =>
        match escape? rest with
        | some (e, n) => prepend e (longRest quote escapes (rest.drop n))
        | none => none
    else if inLine c then prepend c (longRest quote escapes rest)
    else none
termination_by cs.length
decreasing_by all_goals (simp only [List.length_drop, List.length_cons]; omega)

/-- A line break at the very start of a string over lines does not belong to it. -/
def afterFirstBreak : List Char → List Char
  | '\n' :: rest => rest
  | '\r' :: '\n' :: rest => rest
  | cs => cs

/-- A string. -/
def string? (cs : List Char) : Option (String × List Char) :=
  let read := match cs with
    | '"' :: '"' :: '"' :: rest => longRest '"' true (afterFirstBreak rest)
    | '"' :: rest => basicRest rest
    | '\'' :: '\'' :: '\'' :: rest => longRest '\'' false (afterFirstBreak rest)
    | '\'' :: rest => literalRest rest
    | _ => none
  read.map fun (s, rest) => (String.ofList s, rest)

end SchemaForge.Toml
