import SchemaForge.Json.Token

/-!
# Documents

The second stage of reading: tokens become a tree. A broken text has a tree too, which is cut off at
the fault, so a reader that walks the tree in the order of the text meets the faults of grammar and
the faults of shape in that order. Nothing is decided here about who reads the tree: some faults are
worded differently, or do not matter, to a reader who only passes over a value.
-/

namespace SchemaForge

namespace Json

/-- How an array or object ends. -/
inductive Stop
  | closed
  | cut
  | foreign
  | danglingComma
  | cutAfterComma
  | badKey (found : Except JsonError Found)

/-- The complaint of a reader of the items about the end of an array. -/
def Stop.arrayError? : Stop → Option JsonError
  | closed => none
  | cut => some .endInList
  | foreign | badKey _ => some .expectedCommaOrBracket
  | danglingComma => some .trailingComma
  | cutAfterComma => some .endInValue

/-- The complaint of one who passes over an array. -/
def Stop.passedArrayError? : Stop → Option JsonError
  | danglingComma => some .expectedValue
  | stop => stop.arrayError?

/-- The complaint of a reader of the members about the end of an object. -/
def Stop.objectError? : Stop → Option JsonError
  | closed => none
  | cut => some .endInObject
  | foreign => some .expectedCommaOrBrace
  | danglingComma => some .trailingComma
  | cutAfterComma => some .endInValue
  | badKey _ => some .keyNotString

/-- The complaint of one who passes over an object. -/
def Stop.passedObjectError? : Stop → Option JsonError
  | danglingComma => some .keyNotString
  | cutAfterComma => some .endInObject
  | stop => stop.objectError?

/-- A complaint, if there is one, as an outcome. -/
def orElseDone : Option JsonError → Except JsonError Unit
  | none => .ok ()
  | some e => .error e

end Json

open Json

/-- The tree of a JSON text, as far as the text goes. -/
inductive Doc
  | null
  | bool (b : Bool)
  | number (r : Reading Number)
  | string (r : Reading String)
  | array (items : List Doc) (stop : Stop)
  | object (members : List (Reading String × Doc)) (stop : Stop)
  | fault (f : Fault)

namespace Doc

/-- What stands in the place of some other value. -/
def found : Doc → Except JsonError Found
  | null => .ok .null
  | bool b => .ok (.bool b)
  | number r => r.value.map .number
  | string r => r.value.map .text
  | array _ _ => .ok .sequence
  | object _ _ => .ok .map
  | fault f => .error f.error

mutual

/-- The tree of the value that starts with token `t`, and the tokens after it. -/
def ofTokens (t : Token) (ts : List Token) :
    Doc × { rest : List Token // rest.length ≤ ts.length } :=
  match t with
  | .openBracket =>
    match ts with
    | [] => (.array [] .cut, ⟨[], by simp⟩)
    | .closeBracket :: rest => (.array [] .closed, ⟨rest, by simp⟩)
    | t :: rest =>
      let (items, stop, after) := itemsOfTokens t rest
      (.array items stop, ⟨after.1, Nat.le_succ_of_le after.2⟩)
  | .openBrace =>
    match ts with
    | [] => (.object [] .cut, ⟨[], by simp⟩)
    | .closeBrace :: rest => (.object [] .closed, ⟨rest, by simp⟩)
    | t :: rest =>
      let (members, stop, after) := membersOfTokens t rest
      (.object members stop, ⟨after.1, Nat.le_succ_of_le after.2⟩)
  | .null => (.null, ⟨ts, Nat.le_refl _⟩)
  | .bool b => (.bool b, ⟨ts, Nat.le_refl _⟩)
  | .number r => (.number r, ⟨ts, Nat.le_refl _⟩)
  | .string r => (.string r, ⟨ts, Nat.le_refl _⟩)
  | .fault f => (.fault f, ⟨[], by simp⟩)
  | .closeBracket | .closeBrace | .comma | .colon => (.fault .foreign, ⟨[], by simp⟩)
termination_by 2 * ts.length
decreasing_by
  all_goals (simp only [List.length_cons]; omega)

/-- The items of an array whose first item starts with token `t`, and the tokens after the array. -/
def itemsOfTokens (t : Token) (ts : List Token) :
    List Doc × Stop × { rest : List Token // rest.length ≤ ts.length } :=
  let (item, ⟨more, hmore⟩) := ofTokens t ts
  match more, hmore with
  | [], _ => ([item], .cut, ⟨[], by simp⟩)
  | .closeBracket :: rest, h => ([item], .closed, ⟨rest, by simp at h; omega⟩)
  | .comma :: [], _ => ([item], .cutAfterComma, ⟨[], by simp⟩)
  | .comma :: .closeBracket :: _, _ => ([item], .danglingComma, ⟨[], by simp⟩)
  | .comma :: t :: rest, h =>
    let (items, stop, after) := itemsOfTokens t rest
    (item :: items, stop, ⟨after.1, by have := after.2; simp at h; omega⟩)
  | _ :: _, _ => ([item], .foreign, ⟨[], by simp⟩)
termination_by 2 * ts.length + 1
decreasing_by
  · omega
  · simp at h
    omega

/-- The members of an object whose first key starts with token `t`, and the tokens after it. -/
def membersOfTokens (t : Token) (ts : List Token) :
    List (Reading String × Doc) × Stop × { rest : List Token // rest.length ≤ ts.length } :=
  match t with
  | .string key =>
    match ts with
    | [] => ([(key, .fault .cutBeforeColon)], .cut, ⟨[], by simp⟩)
    | .colon :: [] => ([(key, .fault .missing)], .cut, ⟨[], by simp⟩)
    | .colon :: t :: rest =>
      let (value, ⟨more, hmore⟩) := ofTokens t rest
      match more, hmore with
      | [], _ => ([(key, value)], .cut, ⟨[], by simp⟩)
      | .closeBrace :: rest, h => ([(key, value)], .closed, ⟨rest, by simp at h ⊢; omega⟩)
      | .comma :: [], _ => ([(key, value)], .cutAfterComma, ⟨[], by simp⟩)
      | .comma :: .closeBrace :: _, _ => ([(key, value)], .danglingComma, ⟨[], by simp⟩)
      | .comma :: t :: rest, h =>
        let (members, stop, after) := membersOfTokens t rest
        ((key, value) :: members, stop, ⟨after.1, by have := after.2; simp at h ⊢; omega⟩)
      | _ :: _, _ => ([(key, value)], .foreign, ⟨[], by simp⟩)
    | _ :: _ => ([(key, .fault .noColon)], .cut, ⟨[], by simp⟩)
  | t =>
    let (value, _) := ofTokens t ts
    ([], .badKey value.found, ⟨[], by simp⟩)
termination_by 2 * ts.length + 1
decreasing_by
  · simp only [List.length_cons]
    omega
  · simp at h ⊢
    omega
  · omega

end

/-- The tree of a whole text, and whether anything stands after the value. -/
def ofBytes (bytes : Bytes) : Doc × Bool :=
  match tokens bytes with
  | [] => (.fault .missing, false)
  | t :: ts =>
    let (doc, rest) := ofTokens t ts
    (doc, !rest.1.isEmpty)

mutual

/-- The tree of a value that is at hand. -/
def ofJson : Json → Doc
  | .null => .null
  | .bool b => .bool b
  | .number n => .number (.of n)
  | .text s => .string (.of s)
  | .array items => .array (ofItems items) .closed
  | .object members => .object (ofMembers members) .closed

/-- The trees of items. -/
def ofItems : List Json → List Doc
  | [] => []
  | j :: rest => ofJson j :: ofItems rest

/-- The trees of members. -/
def ofMembers : List (String × Json) → List (Reading String × Doc)
  | [] => []
  | (k, v) :: rest => (.of k, ofJson v) :: ofMembers rest

end

mutual

/-- Passing over a value: only faults of grammar count. -/
def pass : Doc → Except JsonError Unit
  | .number r => r.passed
  | .string r => r.passed
  | .array items stop => do
    passItems items
    orElseDone stop.passedArrayError?
  | .object members stop => do
    passMembers members
    orElseDone stop.passedObjectError?
  | .fault f => .error f.error
  | .null | .bool _ => .ok ()

/-- Passing over items. -/
def passItems : List Doc → Except JsonError Unit
  | [] => .ok ()
  | d :: rest => do
    pass d
    passItems rest

/-- Passing over members. -/
def passMembers : List (Reading String × Doc) → Except JsonError Unit
  | [] => .ok ()
  | (key, d) :: rest => do
    key.passed
    pass d
    passMembers rest

end

end Doc

end SchemaForge
