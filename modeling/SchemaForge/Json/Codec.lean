import SchemaForge.Instant.Text
import SchemaForge.Json.Document
import SchemaForge.Json.Printer

/-!
# Codecs

A codec ties a type to its JSON form: one function writes a value, the other reads it back from a
tree. Reading depends a little on where the tree comes from: a text bounds the nesting, and a value
that was held while some other part was decided on is read more leniently in two places.
-/

namespace SchemaForge

namespace Json

/-- Where a tree comes from. -/
inductive Source
  /-- A text, in which arrays and objects may still be nested so many levels deep. -/
  | text (levels : Nat)
  /-- A generic value. -/
  | value
  /-- A part that was held until what it stands for was decided. -/
  | held

/-- Going into an array or object. -/
def Source.enter : Source → Except JsonError Source
  | text 0 => .error .tooDeep
  | text (levels + 1) => .ok (text levels)
  | value => .ok value
  | held => .ok held

/-- A text may nest arrays and objects 127 levels deep. -/
def Source.wholeText : Source := .text 127

end Json

open Json

namespace Doc

/-- The refusal of a value that is not what was expected. -/
def mismatch (expected : String) (d : Doc) : Except JsonError α := do
  throw (.wrongType (← d.found) expected)

mutual

/-- The generic value of a tree, with the members of objects as they stand. -/
def content (src : Source) : Doc → Except JsonError Json
  | .null => .ok .null
  | .bool b => .ok (.bool b)
  | .number r => r.value.map .number
  | .string r => r.value.map .text
  | .array items stop => do
    let js ← contentItems (← src.enter) items
    orElseDone stop.arrayError?
    return .array js
  | .object members stop => do
    let ms ← contentMembers (← src.enter) members
    orElseDone stop.objectError?
    return .object ms
  | .fault f => .error f.error

/-- The generic values of items. -/
def contentItems (src : Source) : List Doc → Except JsonError (List Json)
  | [] => .ok []
  | d :: rest => do
    let j ← content src d
    let js ← contentItems src rest
    return j :: js

/-- The generic values of members. -/
def contentMembers (src : Source) :
    List (Reading String × Doc) → Except JsonError (List (String × Json))
  | [] => .ok []
  | (key, d) :: rest => do
    let k ← key.value
    let j ← content src d
    let ms ← contentMembers src rest
    return (k, j) :: ms

end

end Doc

/-- How values of a type are written as JSON and read from it. -/
structure Codec (α : Type) where
  encode : α → Json
  decode : Source → Doc → Except JsonError α

namespace Codec

/-- A generic value, which is held in canonical form. -/
def json : Codec Json where
  encode j := j
  decode src d := (d.content src).map canonical

/-- A text that a complaint calls `expected`. -/
def textAs (expected : String) : Codec String where
  encode := .text
  decode _ d :=
    match d with
    | .string r => r.value
    | d => d.mismatch expected

/-- A text. -/
def text : Codec String := textAs "a string"

/-- A truth value. -/
def bool : Codec Bool where
  encode := .bool
  decode _ d :=
    match d with
    | .bool b => .ok b
    | d => d.mismatch "a boolean"

/-- Reading a whole number from zero up to a bound. -/
def decodeBelow (bound : Nat) (expected : String) (d : Doc) : Except JsonError Nat :=
  match d with
  | .number r => do
    match ← r.value with
    | .whole i =>
      if 0 ≤ i.val ∧ i.val < bound then return i.val.toNat
      else throw (.wrongValue (.number (.whole i)) expected)
    | .float x => throw (.wrongType (.number (.float x)) expected)
  | d => d.mismatch expected

/-- An unsigned word of 64 bits. -/
def word64 : Codec UInt64 where
  encode := .ofWord
  decode _ d := UInt64.ofNat <$> decodeBelow UInt64.size "u64" d

/-- An unsigned word of 32 bits. -/
def word32 : Codec UInt32 where
  encode w := .ofWord w.toUInt64
  decode _ d := UInt32.ofNat <$> decodeBelow UInt32.size "u32" d

/-- An unsigned word of 8 bits. -/
def word8 : Codec UInt8 where
  encode w := .ofWord w.toUInt64
  decode _ d := UInt8.ofNat <$> decodeBelow UInt8.size "u8" d

/-- An instant, as text. -/
def instant : Codec Instant where
  encode t := .text t.render
  decode _ d :=
    match d with
    | .string r => do
      match Instant.parse (← r.value) with
      | .ok t => return t
      | .error e => throw (.badInstant e)
    | d => d.mismatch "an RFC 3339 formatted date and time string"

/-- Reading items one after the other. -/
def decodeItems (decode : Doc → Except JsonError α) : List Doc → Except JsonError (List α)
  | [] => .ok []
  | d :: rest => do
    let a ← decode d
    let as ← decodeItems decode rest
    return a :: as

/-- A list. -/
def list (c : Codec α) : Codec (List α) where
  encode as := .array (as.map c.encode)
  decode src d :=
    match d with
    | .array items stop => do
      let inner ← src.enter
      let as ← decodeItems (c.decode inner) items
      orElseDone stop.arrayError?
      return as
    | d => d.mismatch "a sequence"

/-! ### Choices among names -/

/-- The case with this name. -/
def pick (cases : List α) (name : α → String) (s : String) : Except JsonError α :=
  match cases.find? fun a => name a == s with
  | some a => .ok a
  | none => .error (.unknownVariant s (cases.map name))

/-- Reading the content of a case without content. -/
def decodeUnit (src : Source) (d : Doc) : Except JsonError Unit :=
  match src, d with
  | _, .null => .ok ()
  | .held, .object [] .closed => .ok ()
  | _, d => d.mismatch "unit"

/-- Reading a choice from a text: a name, or an object with the name as its only key. -/
def decodeChoiceText (pick : String → Except JsonError α) (src : Source) (d : Doc) :
    Except JsonError α :=
  match d with
  | .string r => do pick (← r.value)
  | .object members stop => do
    let inner ← src.enter
    match members with
    | [] =>
      match stop with
      | .cut => throw .endInValue
      | .badKey found => throw (.wrongType (← found) "variant identifier")
      | _ => throw .expectedValue
    | (key, value) :: more => do
      let a ← pick (← key.value)
      decodeUnit inner value
      match more, stop with
      | [], .closed => return a
      | [], .cut => throw .endInObject
      | _, _ => throw .expectedValue
  | .fault .missing => throw .endInValue
  | .fault .noColon => throw .expectedColon
  | .fault .cutBeforeColon => throw .endInObject
  | _ => throw .expectedValue

/-- Reading a choice from a value at hand. -/
def decodeChoiceValue (pick : String → Except JsonError α) (src : Source) (d : Doc) :
    Except JsonError α :=
  match d with
  | .string r => do pick (← r.value)
  | .object [(key, value)] _ => do
    let a ← pick (← key.value)
    decodeUnit src value
    return a
  | .object _ _ => throw (.wrongValue .map "map with a single key")
  | d => d.mismatch "string or map"

/-- One of several cases, by name. -/
def choice (cases : List α) (name : α → String) : Codec α where
  encode a := .text (name a)
  decode src d :=
    match src with
    | .text _ => decodeChoiceText (pick cases name) src d
    | .value | .held => decodeChoiceValue (pick cases name) src d

end Codec

/-- The value that a JSON text, given as bytes, holds. -/
def Codec.ofBytes (c : Codec α) (bytes : Bytes) : Except JsonError α := do
  let (doc, trailing) := Doc.ofBytes bytes
  let a ← c.decode .wholeText doc
  if trailing then throw .trailingCharacters
  return a

/-- The value that a JSON text holds. -/
def Codec.ofText (c : Codec α) (s : String) : Except JsonError α := c.ofBytes (Text.utf8 s)

/-- The value that a generic JSON value holds. -/
def Codec.ofJson (c : Codec α) (j : Json) : Except JsonError α := c.decode .value (.ofJson j)

/-- The JSON text of a value. -/
def Codec.toText (c : Codec α) (a : α) : String := (c.encode a).render

end SchemaForge
