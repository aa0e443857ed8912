import SchemaForge.Number.Binary64

/-!
# JSON values

A JSON value keeps the members of an object in the order they were written. `canonical` is the form
in which generic values are held: members sorted by key, and of two with one key the later one.
-/

namespace SchemaForge

/-- A whole number that fits in 64 bits, signed or unsigned. -/
abbrev WholeNumber := { i : Int // -0x8000000000000000 ≤ i ∧ i < 0x10000000000000000 }

/-- A JSON number: whole within 64 bits, and binary64 otherwise. -/
inductive Number
  | whole (i : WholeNumber)
  | float (x : Binary64)
  deriving DecidableEq

/-- A JSON value. -/
inductive Json
  | null
  | bool (b : Bool)
  | number (n : Number)
  | text (s : String)
  | array (items : List Json)
  | object (members : List (String × Json))
  deriving BEq

namespace Json

/-- The number of an unsigned 64-bit word. -/
def ofWord (w : UInt64) : Json :=
  .number (.whole ⟨w.toNat, by have := w.toNat_lt; omega⟩)

/-- The member with this key, if there is one; the first of several. -/
def member? (key : String) (members : List (String × Json)) : Option Json := members.lookup key

/-- Members sorted by key, with one more: it takes the place of the member that has its key. -/
def putMember (key : String) (value : Json) : List (String × Json) → List (String × Json)
  | [] => [(key, value)]
  | (k, v) :: rest =>
    if key < k then (key, value) :: (k, v) :: rest
    else if key = k then (key, value) :: rest
    else (k, v) :: putMember key value rest

mutual

/-- The value with the members of every object sorted by key, the later of two with one key. -/
def canonical : Json → Json
  | .array items => .array (canonicalItems items)
  | .object members => .object (canonicalMembers [] members)
  | j => j

/-- The items in canonical form. -/
def canonicalItems : List Json → List Json
  | [] => []
  | j :: rest => canonical j :: canonicalItems rest

/-- The members added one by one to the sorted members before them. -/
def canonicalMembers (sorted : List (String × Json)) : List (String × Json) → List (String × Json)
  | [] => sorted
  | (k, v) :: rest => canonicalMembers (putMember k (canonical v) sorted) rest

end

mutual

/-- How many arrays and objects stand inside one another, at most. -/
def depth : Json → Nat
  | .array items => 1 + depthItems items
  | .object members => 1 + depthMembers members
  | _ => 0

/-- The greatest depth of the items. -/
def depthItems : List Json → Nat
  | [] => 0
  | j :: rest => max (depth j) (depthItems rest)

/-- The greatest depth of the members' values. -/
def depthMembers : List (String × Json) → Nat
  | [] => 0
  | (_, v) :: rest => max (depth v) (depthMembers rest)

end

end Json

end SchemaForge
