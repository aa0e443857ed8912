import SchemaForge.Schema.Records

/-!
# Model files

Every object of a project becomes one model file, whose lines are an opening, one entry for each
attribute in order, and a closing. The text depends on nothing but the names, the types and the
required flags.
-/

namespace SchemaForge

/-- The word for a type in a model file. -/
def AttributeType.token : AttributeType → String
  | text => "string"
  | integer | decimal | dateTime => "number"
  | boolean => "boolean"
  | list | dictionary => "json"

/-- A generated file: its path below the root of the generated project, and its text. -/
structure ModelFile where
  path : String
  source : String
  deriving DecidableEq

namespace ModelFile

/-- The directory of model files below the root of the generated project. -/
def directory : String := "api/models"

/-- The name of the file of an object. -/
def nameOf (object : Object) : String := object.name ++ ".js"

/-- The path of the file of an object. -/
def pathOf (object : Object) : String := directory ++ "/" ++ nameOf object

/-- The line of an attribute. -/
def entryLine (a : Attribute) : String :=
  "        " ++ a.name ++ ": \x7b type: '" ++ a.type.token ++ "', required: " ++ toString a.required
    ++ " \x7d,"

/-- The lines before the entries. -/
def opening (object : Object) : List String :=
  ["// " ++ pathOf object, "", "module.exports = \x7b", "    attributes: \x7b"]

/-- The lines after the entries. -/
def closing : List String := ["    \x7d", "\x7d"]

/-- The lines of the file of an object. -/
def lines (object : Object) (attributes : List Attribute) : List String :=
  opening object ++ attributes.map entryLine ++ closing

/-- Lines as a text, each ended by a line break. -/
def ofLines (lines : List String) : String := String.join (lines.map (· ++ "\n"))

/-- The file of an object with its attributes. -/
def ofObject (object : Object) (attributes : List Attribute) : ModelFile :=
  ⟨pathOf object, ofLines (lines object attributes)⟩

end ModelFile

end SchemaForge
