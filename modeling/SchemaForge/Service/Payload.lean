import SchemaForge.Schema.Codecs
import SchemaForge.Service.Error

/-!
# Bodies of requests

What a body asks for, read from the members of a JSON object. A member that is null counts as
missing, and the first fault is the one that is answered.
-/

namespace SchemaForge.Body

open Json

/-- The members of the JSON object that a body holds. -/
def members (body : Option Bytes) : Except ApiError (List (String × Json)) :=
  match body with
  | none | some [] => .error .missingBody
  | some bytes =>
    match Codec.json.ofBytes bytes with
    | .ok (.object members) => .ok members
    | .ok _ => .error (.invalidBody "expected a JSON object")
    | .error e => .error (.invalidBody e.message)

/-- A text that may be missing. -/
def optionalText (members : List (String × Json)) (field : String) :
    Except ApiError (Option String) :=
  match member? field members with
  | none | some .null => .ok none
  | some (.text s) => .ok (some s)
  | some _ => .error (.invalidParameter field "expected a string")

/-- A text that must be there. -/
def requiredText (members : List (String × Json)) (field : String) : Except ApiError String := do
  match ← optionalText members field with
  | some s => return s
  | none => throw (.missingParameter field)

/-- A value that a codec reads, under the name of a parameter. -/
def decodeParameter (c : Codec α) (field : String) (j : Json) : Except ApiError α :=
  match c.ofJson j with
  | .ok a => .ok a
  | .error e => .error (.invalidParameter field e.message)

/-- Whether an attribute is required; it is not where nothing is said. -/
def requiredFlag (members : List (String × Json)) : Except ApiError Bool :=
  match member? "required" members with
  | none | some .null => .ok false
  | some (.bool b) => .ok b
  | some _ => .error (.invalidParameter "required" "expected true or false")

/-- An attribute of a new object. -/
def newAttribute (item : Json) : Except ApiError NewAttribute :=
  match item with
  | .object members => do
    let name ← match member? "name" members with
      | some (.text s) => pure s
      | _ => throw (.missingAttributeParameter "name")
    let type ← match member? "type" members with
      | none | some .null => throw (.missingAttributeParameter "type")
      | some value => decodeParameter AttributeType.codec "type" value
    let required ← requiredFlag members
    let description ← optionalText members "description"
    return ⟨name, type, required, description⟩
  | _ => .error (.invalidParameter "attributes" "expected a list of objects")

/-- The attributes of a new object, up to the first fault. -/
def newAttributes : List Json → Except ApiError (List NewAttribute)
  | [] => .ok []
  | item :: rest => do
    let a ← newAttribute item
    let as ← newAttributes rest
    return a :: as

/-- A new object. -/
def newObject (members : List (String × Json)) : Except ApiError NewObject := do
  let name ← requiredText members "name"
  let attributes ← match member? "attributes" members with
    | none | some .null => pure []
    | some (.array items) => newAttributes items
    | some _ => throw (.invalidParameter "attributes" "expected a list")
  return ⟨name, attributes⟩

/-- The method of a new action. -/
def method (members : List (String × Json)) : Except ApiError HttpMethod := do
  let name ← requiredText members "method"
  match HttpMethod.ofName? name with
  | some m => return m
  | none => throw (.invalidParameter "method" (HttpMethod.unsupported name))

/-- A new action. -/
def newAction (members : List (String × Json)) : Except ApiError NewAction := do
  let friendlyName ← requiredText members "name"
  let route ← requiredText members "route"
  let method ← method members
  let returnValues ← match member? "return_values" members with
    | none | some .null => pure []
    | some value => decodeParameter (.list ReturnValue.codec) "return_values" value
  let identifier ← optionalText members "identifier"
  let description ← optionalText members "description"
  return ⟨friendlyName, identifier, method, route, description, returnValues⟩

end SchemaForge.Body
