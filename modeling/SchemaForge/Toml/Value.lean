import SchemaForge.Number.Shortest
import SchemaForge.Text.Quoted

/-!
# TOML values

The values of a TOML text, and the rules by which the statements of the text add up to a table. A
table remembers how it came to be, because that decides how it may still grow.
-/

namespace SchemaForge.Toml

/-- A number with a fraction or an exponent. -/
inductive Real
  | finite (x : Binary64)
  | infinite (negative : Bool)
  | nan
  deriving DecidableEq

/-- How a table came to be. -/
inductive Origin
  /-- By a header that names it. -/
  | header
  /-- By a header that names a table in it. -/
  | implied
  /-- By a key with dots. -/
  | dotted
  /-- As a value. -/
  | inline
  deriving DecidableEq

/-- A value. -/
inductive Value
  | text (s : String)
  | integer (i : Int)
  | real (x : Real)
  | bool (b : Bool)
  | dateTime (written : String)
  | array (items : List Value)
  | table (origin : Origin) (entries : List (String × Value))
  | tables (elements : List (List (String × Value)))

/-- The entries of a table, in the order of their keys' first mention. -/
abbrev Entries := List (String × Value)

/-! ### What a message calls a value -/

/-- The text of a number in a message. -/
def Real.describe : Real → String
  | finite x => x.render fun _ => true
  | infinite false => "inf"
  | infinite true => "-inf"
  | nan => "NaN"

/-- The kind of a value and, if it is short, the value. -/
def Value.describe : Value → String
  | text s => "string " ++ Text.quoted s
  | integer i => s!"integer `{i}`"
  | real x => s!"floating point `{x.describe}`"
  | bool b => s!"boolean `{b}`"
  | dateTime _ => "map"
  | array _ => "sequence"
  | table _ _ => "map"
  | tables _ => "sequence"

/-! ### How tables grow -/

namespace Entries

/-- The entries with another value under a key that they have. -/
def replace (key : String) (v : Value) (entries : Entries) : Entries :=
  entries.map fun entry => if entry.1 = key then (key, v) else entry

/-- The last element of an array of tables, changed. -/
def changeLast (change : Entries → Option Entries) (elements : List Entries) :
    Option (List Entries) := do
  let last ← elements.getLast?
  return elements.dropLast ++ [← change last]

/-- The table that a header's path leads to, changed; the tables on the way are made where they are
missing. In an array of tables the way goes on in the last element. -/
def alter (change : Entries → Option Entries) : List String → Entries → Option Entries
  | [], entries => change entries
  | key :: path, entries =>
    match entries.lookup key with
    | none => do return entries ++ [(key, .table .implied (← alter change path []))]
    | some (.table .inline _) => none
    | some (.table origin inner) => do
      return replace key (.table origin (← alter change path inner)) entries
    | some (.tables elements) => do
      return replace key (.tables (← changeLast (alter change path) elements)) entries
    | some _ => none

/-- A value put under a key with dots. It must be new, and the tables on the way must not have been
closed by a header of their own or by being a value. -/
def insert (v : Value) : List String → Entries → Option Entries
  | [], _ => none
  | [key], entries =>
    if (entries.lookup key).isSome then none else some (entries ++ [(key, v)])
  | key :: next :: path, entries =>
    match entries.lookup key with
    | none => do return entries ++ [(key, .table .dotted (← insert v (next :: path) []))]
    | some (.table origin inner) =>
      if origin = .dotted ∨ (origin = .implied ∧ path ≠ []) then do
        return replace key (.table origin (← insert v (next :: path) inner)) entries
      else none
    | some (.tables elements) =>
      if path = [] then none
      else do
        return replace key (.tables (← changeLast (insert v (next :: path)) elements)) entries
    | some _ => none

/-- A table under a key, opened by a header; one that a header implied before comes last now. -/
def openTable (key : String) (entries : Entries) : Option Entries :=
  match entries.lookup key with
  | none => some (entries ++ [(key, .table .header [])])
  | some (.table .implied inner) =>
    some ((entries.filter fun entry => entry.1 ≠ key) ++ [(key, .table .header inner)])
  | some _ => none

/-- One more element of the array of tables under a key. -/
def openElement (key : String) (entries : Entries) : Option Entries :=
  match entries.lookup key with
  | none => some (entries ++ [(key, .tables [[]])])
  | some (.tables elements) => some (replace key (.tables (elements ++ [[]])) entries)
  | some _ => none

end Entries

end SchemaForge.Toml
