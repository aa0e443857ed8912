import SchemaForge.Json.Record
import SchemaForge.Schema.Records

/-!
# JSON form of the schema

The codec of every record and payload. Members are written in the order of the fields; optional parts
are left out, and tagged choices name their case first.
-/

namespace SchemaForge

open Json

/-- The type that a JSON value gives by code or by label. The value is read before it is judged. -/
def AttributeType.ofContent : Json → Except JsonError AttributeType
  | .number (.whole i) =>
    if 0 ≤ i.val ∧ i.val < 256 then
      let code := UInt8.ofNat i.val.toNat
      match AttributeType.ofCode? code with
      | some t => .ok t
      | none => .error (.unknownTypeCode code)
    else .error .neitherCodeNorLabel
  | .text s =>
    match AttributeType.ofLabel? s with
    | some t => .ok t
    | none => .error (.unknownTypeLabel s)
  | _ => .error .neitherCodeNorLabel

/-- A type of an attribute, written as its label. -/
def AttributeType.codec : Codec AttributeType where
  encode t := .text t.label
  decode src d := do AttributeType.ofContent (← d.content src)

/-- A method of an action. -/
def HttpMethod.codec : Codec HttpMethod := .choice HttpMethod.all HttpMethod.name

/-- A sort direction. -/
def SortDirection.codec : Codec SortDirection := .choice SortDirection.all SortDirection.name

/-- A target language. -/
def TargetLanguage.codec : Codec TargetLanguage := .choice TargetLanguage.all TargetLanguage.name

/-- A project. -/
def Project.codec : Codec Project :=
  .record "struct Project"
    (.field (.required "id" .word64) <| .field (.required "name" .text) <|
      .field (.required "owner" .word64) <|
      .field (.withDefault "language" TargetLanguage.codec .sailsJs) <|
      .field (.required "created_at" .instant) .done)
    (fun p => (p.id, p.name, p.owner, p.language, p.createdAt, ()))
    (fun (id, name, owner, language, createdAt, ()) => ⟨id, name, owner, language, createdAt⟩)

/-- A new project. -/
def NewProject.codec : Codec NewProject :=
  .record "struct NewProject"
    (.field (.required "name" .text) <|
      .field (.withDefault "language" TargetLanguage.codec .sailsJs) .done)
    (fun p => (p.name, p.language, ()))
    (fun (name, language, ()) => ⟨name, language⟩)

/-- An object. -/
def Object.codec : Codec Object :=
  .record "struct Object"
    (.field (.required "id" .word64) <| .field (.required "name" .text) <|
      .field (.required "project_id" .word64) <| .field (.required "owner" .word64) <|
      .field (.required "created_at" .instant) .done)
    (fun o => (o.id, o.name, o.projectId, o.owner, o.createdAt, ()))
    (fun (id, name, projectId, owner, createdAt, ()) => ⟨id, name, projectId, owner, createdAt⟩)

/-- An attribute. -/
def Attribute.codec : Codec Attribute :=
  .record "struct Attribute"
    (.field (.required "id" .word64) <| .field (.required "object_id" .word64) <|
      .field (.required "name" .text) <| .field (.required "type" AttributeType.codec) <|
      .field (.withDefault "required" .bool false) <|
      .field (.optional "description" .text) .done)
    (fun a => (a.id, a.objectId, a.name, a.type, a.required, a.description, ()))
    (fun (id, objectId, name, type, required, description, ()) =>
      ⟨id, objectId, name, type, required, description⟩)

/-- A new attribute. -/
def NewAttribute.codec : Codec NewAttribute :=
  .record "struct NewAttribute"
    (.field (.required "name" .text) <| .field (.required "type" AttributeType.codec) <|
      .field (.withDefault "required" .bool false) <|
      .field (.optional "description" .text) .done)
    (fun a => (a.name, a.type, a.required, a.description, ()))
    (fun (name, type, required, description, ()) => ⟨name, type, required, description⟩)

/-- A new object. -/
def NewObject.codec : Codec NewObject :=
  .record "struct NewObject"
    (.field (.required "name" .text) <|
      .field (.withDefault "attributes" (.list NewAttribute.codec) []) .done)
    (fun o => (o.name, o.attributes, ()))
    (fun (name, attributes, ()) => ⟨name, attributes⟩)

/-- Result options. -/
def ResultOptions.codec : Codec ResultOptions :=
  .record "struct ResultOptions"
    (.field (.optional "page_size" .word32) <| .field (.optional "sort_by" .text) <|
      .field (.withDefault "sort_direction" SortDirection.codec .ascending) <|
      .field (.optional "filter" .text) .done)
    (fun o => (o.pageSize, o.sortBy, o.sortDirection, o.filter, ()))
    (fun (pageSize, sortBy, sortDirection, filter, ()) =>
      ⟨pageSize, sortBy, sortDirection, filter⟩)

/-- The fields of a literal value. -/
def ReturnValue.literalFields : Fields (Json × Unit) := .field (.required "value" .json) .done

/-- The fields of a value that is found by the member `key`. -/
def ReturnValue.lookupFields (key : String) : Fields (String × ResultOptions × Unit) :=
  .field (.required key .text) <| .field (.withDefault "options" ResultOptions.codec .plain) .done

/-- The cases of a return value. -/
def ReturnValue.cases : List (Variant ReturnValue) :=
  [.ofFields "literal" "struct variant ReturnValue::Literal" literalFields
      fun (value, ()) => .literal value,
    .ofFields "query" "struct variant ReturnValue::Query" (lookupFields "query")
      fun (source, options, ()) => .query source options,
    .ofFields "attribute" "struct variant ReturnValue::Attribute" (lookupFields "attribute")
      fun (name, options, ()) => .attributeValue name options]

/-- A return value. -/
def ReturnValue.codec : Codec ReturnValue where
  encode
    | .literal value => .object (("source", .text "literal") :: literalFields.write (value, ()))
    | .query source options =>
      .object (("source", .text "query") :: (lookupFields "query").write (source, options, ()))
    | .attributeValue name options =>
      .object (("source", .text "attribute")
        :: (lookupFields "attribute").write (name, options, ()))
  decode := decodeTagged "internally tagged enum ReturnValue" "source" ReturnValue.cases

/-- An action. -/
def Action.codec : Codec Action :=
  .record "struct Action"
    (.field (.required "id" .word64) <| .field (.required "object_id" .word64) <|
      .field (.required "friendly_name" .text) <| .field (.required "identifier" .text) <|
      .field (.required "method" HttpMethod.codec) <| .field (.required "route" .text) <|
      .field (.optional "description" .text) <|
      .field (.withDefault "return_values" (.list ReturnValue.codec) []) .done)
    (fun a => (a.id, a.objectId, a.friendlyName, a.identifier, a.method, a.route, a.description,
      a.returnValues, ()))
    (fun (id, objectId, friendlyName, identifier, method, route, description, returnValues, ()) =>
      ⟨id, objectId, friendlyName, identifier, method, route, description, returnValues⟩)

/-- A new action. -/
def NewAction.codec : Codec NewAction :=
  .record "struct NewAction"
    (.field (.required "name" .text) <| .field (.optional "identifier" .text) <|
      .field (.required "method" HttpMethod.codec) <| .field (.required "route" .text) <|
      .field (.optional "description" .text) <|
      .field (.withDefault "return_values" (.list ReturnValue.codec) []) .done)
    (fun a => (a.friendlyName, a.identifier, a.method, a.route, a.description, a.returnValues, ()))
    (fun (friendlyName, identifier, method, route, description, returnValues, ()) =>
      ⟨friendlyName, identifier, method, route, description, returnValues⟩)

end SchemaForge
