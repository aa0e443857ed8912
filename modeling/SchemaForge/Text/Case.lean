import SchemaForge.Text.CaseTable

/-!
# Upper and lower case

The full case mappings of Unicode, with one rule that looks at its surroundings: a capital sigma at
the end of a word becomes the final small sigma.
-/

namespace SchemaForge.Text

/-- Where the runs send a code point, if one of them covers it. -/
def CaseRun.image (runs : List CaseRun) (n : Nat) : Option Nat :=
  (runs.find? fun run => run.first ≤ n && n ≤ run.last && (n - run.first) % run.step == 0).map
    fun run => ((n : Int) + run.shift).toNat

/-- The case mapping given by runs and expansions; a character in neither stays. -/
def mapCase (runs : List CaseRun) (expansions : List (Nat × List Nat)) (c : Char) : List Char :=
  match CaseRun.image runs c.toNat with
  | some n => [Char.ofNat n]
  | none =>
    match expansions.lookup c.toNat with
    | some ns => ns.map Char.ofNat
    | none => [c]

/-- The upper case of a character. -/
def upperChar (c : Char) : List Char :=
  if c.toNat < 0x80 then [c.toUpper] else mapCase upperRuns upperExpansions c

/-- The lower case of a character that stands alone. -/
def lowerChar (c : Char) : List Char :=
  if c.toNat < 0x80 then [c.toLower] else mapCase lowerRuns lowerExpansions c

/-- Is the first character that is not case-ignorable a cased one? -/
def casedAhead (cs : List Char) : Bool :=
  match cs.dropWhile caseIgnorable.holds with
  | [] => false
  | c :: _ => cased.holds c

/-- The lower case of the characters after `before`, which is given from its end. -/
def lowerAfter (before : List Char) : List Char → List Char
  | [] => []
  | c :: rest =>
    (if c = 'Σ' then [if casedAhead before && !casedAhead rest then 'ς' else 'σ'] else lowerChar c)
      ++ lowerAfter (c :: before) rest

/-- The lower case of a run of characters. -/
def lowered (cs : List Char) : List Char := lowerAfter [] cs

/-- The upper case of a run of characters. -/
def uppered (cs : List Char) : List Char := cs.flatMap upperChar

/-- The text in lower case. -/
def lower (s : String) : String := String.ofList (lowered s.toList)

/-- The text in upper case. -/
def upper (s : String) : String := String.ofList (uppered s.toList)

/-- Are two texts equal but for the case of their ASCII letters? -/
def sameIgnoringCase (s t : String) : Bool := s.toList.map Char.toLower == t.toList.map Char.toLower

end SchemaForge.Text
