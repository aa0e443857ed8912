import SchemaForge.Json.Value
import SchemaForge.Text.Case
import SchemaForge.Text.Utf8

/-!
# Responses

What a request is answered with. A downloaded file is named in a header, as a quoted string in which
quotation marks and backslashes have a backslash before them.
-/

namespace SchemaForge

/-- What a response carries. -/
inductive ResponseBody
  | empty
  | json (value : Json)
  | bytes (content : Bytes)
  deriving BEq

/-- A status, headers in order, and a body. -/
structure Response where
  status : Nat
  headers : List (String × String)
  body : ResponseBody
  deriving BEq

namespace Response

/-- A JSON value under a status. -/
def ofJson (status : Nat) (value : Json) : Response :=
  ⟨status, [("Content-Type", "application/json")], .json value⟩

/-- A JSON object that says that all went well. -/
def ok (members : List (String × Json)) : Response := ofJson 200 (.object members)

/-- A JSON object that says that something was created. -/
def created (members : List (String × Json)) : Response := ofJson 201 (.object members)

/-- A status and nothing else. -/
def empty (status : Nat) : Response := ⟨status, [], .empty⟩

/-- A character of a quoted string. -/
def quotedChar (c : Char) : List Char := if c = '\\' ∨ c = '"' then ['\\', c] else [c]

/-- A text as a quoted string. -/
def quotedString (s : String) : String :=
  String.ofList ('"' :: s.toList.flatMap quotedChar ++ ['"'])

/-- The header value that names a file to be saved. -/
def disposition (fileName : String) : String := "attachment; filename=" ++ quotedString fileName

/-- An archive to be saved under a name. -/
def attachment (fileName : String) (content : Bytes) : Response :=
  ⟨200,
    [("Content-Type", "application/zip"), ("Content-Disposition", disposition fileName),
      ("Content-Length", toString content.length)],
    .bytes content⟩

/-- The value of a header; case does not matter in its name. -/
def header? (r : Response) (name : String) : Option String :=
  (r.headers.find? fun header => Text.sameIgnoringCase header.1 name).map Prod.snd

/-- The JSON value that a response carries. -/
def json? (r : Response) : Option Json :=
  match r.body with
  | .json value => some value
  | _ => none

end Response

end SchemaForge
