import SchemaForge.Json.Codec

/-!
# Records and tagged choices

A record is described once, by its fields in order; the description writes the record as an object
and reads it from an object or from an array of its fields. The value read so far is kept in a slot
for each field, so a fault is met in the order of the text. A tagged choice names its case in one
member and has the fields of a record beside it.
-/

namespace SchemaForge

open Json

/-- One field of a record. -/
structure Field (α : Type) where
  key : String
  /-- The value as JSON; `none` where it is left out. -/
  write : α → Option Json
  read : Source → Doc → Except JsonError α
  /-- What an absent field stands for; `none` where it must not be absent. -/
  absent : Option α

/-- A field that must be there. -/
def Field.required (key : String) (c : Codec α) : Field α :=
  ⟨key, fun a => some (c.encode a), c.decode, none⟩

/-- A field that stands for `value` where it is absent. -/
def Field.withDefault (key : String) (c : Codec α) (value : α) : Field α :=
  ⟨key, fun a => some (c.encode a), c.decode, some value⟩

/-- A field that is left out where there is nothing to write. -/
def Field.optional (key : String) (c : Codec α) : Field (Option α) where
  key := key
  write a? := a?.map c.encode
  read src d :=
    match d with
    | .null => .ok none
    | d => some <$> c.decode src d
  absent := some none

/-- The fields of a record, whose values together have the type `τ`. -/
inductive Fields : Type → Type 1
  | done : Fields Unit
  | field {α β : Type} (f : Field α) (rest : Fields β) : Fields (α × β)

namespace Fields

/-- The keys of the fields, in order. -/
def keys : {τ : Type} → Fields τ → List String
  | _, done => []
  | _, field f rest => f.key :: rest.keys

/-- The members of a record as an object. -/
def write : {τ : Type} → Fields τ → τ → List (String × Json)
  | _, done, () => []
  | _, field f rest, (a, b) =>
    match f.write a with
    | some j => (f.key, j) :: rest.write b
    | none => rest.write b

/-- A slot for the value of each field. -/
def Slots : {τ : Type} → Fields τ → Type
  | _, done => Unit
  | _, @field α _ _ rest => Option α × rest.Slots

/-- Slots without values. -/
def empty : {τ : Type} → (fs : Fields τ) → fs.Slots
  | _, done => ()
  | _, field _ rest => (none, rest.empty)

/-- Reading the value of the member `key` into its slot; a member of no field is passed over. -/
def put (src : Source) (key : String) (d : Doc) :
    {τ : Type} → (fs : Fields τ) → fs.Slots → Except JsonError fs.Slots
  | _, done, slots => do
    d.pass
    return slots
  | _, @field α _ f rest, slots =>
    let here : Option α := slots.1
    if f.key = key then
      match here with
      | some _ => throw (.duplicateField key)
      | none => do
        let a ← f.read src d
        return (some a, slots.2)
    else do
      let others ← rest.put src key d slots.2
      return (here, others)

/-- Reading members one after the other. -/
def putAll (src : Source) (fs : Fields τ) (slots : fs.Slots) :
    List (Reading String × Doc) → Except JsonError fs.Slots
  | [] => .ok slots
  | (key, d) :: rest => do
    let k ← key.value
    let slots ← fs.put src k d slots
    putAll src fs slots rest

/-- The values of the fields, once all members are read. -/
def complete : {τ : Type} → (fs : Fields τ) → fs.Slots → Except JsonError τ
  | _, done, _ => .ok ()
  | _, @field α _ f rest, slots => do
    let here : Option α := slots.1
    let a ← match here, f.absent with
      | some a, _ => pure a
      | none, some a => pure a
      | none, none => throw (.missingField f.key)
    let others ← rest.complete slots.2
    return (a, others)

/-- The values of the fields from the items of an array, and the items after them. `index` is the
number of items before these. -/
def fromItems (src : Source) (expected : String) (stop : Stop) :
    {τ : Type} → Fields τ → Nat → List Doc → Except JsonError (τ × List Doc)
  | _, done, _, items => .ok ((), items)
  | _, field f rest, index, d :: items => do
    let a ← f.read src d
    let (b, left) ← rest.fromItems src expected stop (index + 1) items
    return ((a, b), left)
  | _, field f rest, index, [] => do
    orElseDone stop.arrayError?
    match f.absent with
    | some a => do
      let (b, left) ← rest.fromItems src expected stop index []
      return ((a, b), left)
    | none => throw (.wrongLength index expected)

end Fields

/-- So many elements, in words. -/
def elements (n : Nat) : String := if n = 1 then "1 element" else s!"{n} elements"

/-- The complaint about what follows the fields of a record in an array. -/
def leftOver (src : Source) (taken : Nat) (left : List Doc) (stop : Stop) : Option JsonError :=
  match src with
  | .text _ =>
    match left, stop with
    | [], .closed => none
    | [], .cut => some .endInList
    | [], .danglingComma => some .trailingComma
    | _, _ => some .trailingCharacters
  | .value =>
    if left.isEmpty then none
    else some (.wrongLength (taken + left.length) "fewer elements in array")
  | .held =>
    if left.isEmpty then none
    else some (.wrongLength (taken + left.length) (elements taken ++ " in sequence"))

/-- Reading a record from an object or an array. -/
def Fields.decode (fs : Fields τ) (expected : String) (src : Source) (d : Doc) :
    Except JsonError τ :=
  match d with
  | .object members stop => do
    let inner ← src.enter
    let slots ← fs.putAll inner fs.empty members
    orElseDone stop.objectError?
    fs.complete slots
  | .array items stop => do
    let inner ← src.enter
    let count := fs.keys.length
    let (value, left) ←
      fs.fromItems inner s!"{expected} with {elements count}" stop 0 items
    orElseDone (leftOver src (min count items.length) left stop)
    return value
  | d => d.mismatch expected

/-- The codec of a record type whose values are made of the fields' values. -/
def Codec.record (expected : String) (fs : Fields τ) (values : α → τ) (make : τ → α) : Codec α where
  encode a := .object (fs.write (values a))
  decode src d := make <$> fs.decode expected src d

/-! ### Tagged choices -/

/-- A case of a tagged choice: its tag, and how what stands beside the tag is read. -/
structure Variant (α : Type) where
  tag : String
  decode : Doc → Except JsonError α

/-- A case with fields. -/
def Variant.ofFields (tag expected : String) (fs : Fields τ) (make : τ → α) : Variant α where
  tag := tag
  decode d := make <$> fs.decode expected .held d

/-- A case without fields, which passes over all that stands beside the tag. -/
def Variant.ofUnit (tag : String) (value : α) : Variant α where
  tag := tag
  decode d :=
    match d with
    | .array (item :: items) _ =>
      throw (.wrongLength (items.length + [item].length) "0 elements in sequence")
    | _ => .ok value

/-- The case that a tag names; held tags may be numbers that count the cases. -/
def readTag (variants : List (Variant α)) (src : Source) (d : Doc) : Except JsonError (Variant α) :=
  match src, d with
  | _, .string r => do
    let s ← r.value
    match variants.find? fun v => v.tag == s with
    | some v => return v
    | none => throw (.unknownVariant s (variants.map Variant.tag))
  | .held, .number r => do
    match ← r.value with
    | .whole i =>
      if i.val < 0 then throw (.wrongType (.number (.whole i)) "variant identifier")
      else
        match variants[i.val.toNat]? with
        | some v => return v
        | none =>
          throw (.wrongValue (.number (.whole i)) s!"variant index 0 <= i < {variants.length}")
    | .float x => throw (.wrongType (.number (.float x)) "variant identifier")
  | _, d => d.mismatch "variant identifier"

/-- The tag among members, if it is there, and the generic values of the other members. -/
def splitTag (key : String) (variants : List (Variant α)) (src : Source) :
    Option (Variant α) → List (Reading String × Doc) →
      Except JsonError (Option (Variant α) × List (String × Json))
  | tag, [] => .ok (tag, [])
  | tag, (k, d) :: rest => do
    let k ← k.value
    if k = key then
      if tag.isSome then throw (.duplicateField key)
      let v ← readTag variants src d
      splitTag key variants src (some v) rest
    else
      let j ← d.content src
      let (tag, others) ← splitTag key variants src tag rest
      return (tag, (k, j) :: others)

/-- Reading a tagged choice from an object, or from an array that starts with the tag. All of it is
read before the fields of the case are looked at. -/
def decodeTagged (expected key : String) (variants : List (Variant α)) (src : Source) (d : Doc) :
    Except JsonError α :=
  match d with
  | .object members stop => do
    let inner ← src.enter
    let (tag, others) ← splitTag key variants inner none members
    orElseDone stop.objectError?
    match tag with
    | some v => v.decode (.ofJson (.object others))
    | none => throw (.missingField key)
  | .array [] stop => do
    let _ ← src.enter
    orElseDone stop.arrayError?
    throw (.missingField key)
  | .array (first :: rest) stop => do
    let inner ← src.enter
    let v ← readTag variants inner first
    let others ← Doc.contentItems inner rest
    orElseDone stop.arrayError?
    v.decode (.ofJson (.array others))
  | d => d.mismatch expected

end SchemaForge
