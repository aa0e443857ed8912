import SchemaForge.Text.Blank
import SchemaForge.Text.Case

/-!
# Kinds

The closed lists of the schema: types of attributes, methods of actions, sort directions and target
languages. Each has a name in texts, and types and languages have a number in stored rows as well.
-/

namespace SchemaForge

/-- The type of an attribute. -/
inductive AttributeType
  | text
  | integer
  | decimal
  | dateTime
  | boolean
  | list
  | dictionary
  deriving DecidableEq, Repr

namespace AttributeType

/-- All types, in the order of their codes. -/
def all : List AttributeType := [text, integer, decimal, dateTime, boolean, list, dictionary]

/-- The number of a type in stored rows. -/
def code : AttributeType → UInt8
  | text => 1
  | integer => 2
  | decimal => 3
  | dateTime => 4
  | boolean => 5
  | list => 6
  | dictionary => 7

/-- The type with this number. -/
def ofCode? (code : UInt8) : Option AttributeType := all.find? fun t => t.code == code

/-- The name of a type. -/
def label : AttributeType → String
  | text => "Text"
  | integer => "Integer"
  | decimal => "Decimal"
  | dateTime => "Date/Time"
  | boolean => "Boolean"
  | list => "List"
  | dictionary => "Dictionary"

/-- The type that a label names, in any case and with blanks around it. Some types have a second
name. -/
def ofLabel? (s : String) : Option AttributeType :=
  match Text.lower (Text.trim s) with
  | "text" | "string" => some text
  | "integer" => some integer
  | "decimal" | "float" => some decimal
  | "date/time" | "datetime" => some dateTime
  | "boolean" | "true/false" => some boolean
  | "list" => some list
  | "dictionary" => some dictionary
  | _ => none

theorem ofCode?_code (t : AttributeType) : ofCode? t.code = some t := by cases t <;> rfl

theorem ofCode?_eq_some_iff {code : UInt8} {t : AttributeType} :
    ofCode? code = some t ↔ code = t.code := by
  constructor
  · intro h
    have := List.find?_some h
    simp only [beq_iff_eq] at this
    exact this.symm
  · rintro rfl
    exact ofCode?_code t

end AttributeType

/-- The method with which an action is called. -/
inductive HttpMethod
  | post
  | get
  | put
  | delete
  deriving DecidableEq, Repr

namespace HttpMethod

/-- All methods. -/
def all : List HttpMethod := [post, get, put, delete]

/-- The name of a method. -/
def name : HttpMethod → String
  | post => "POST"
  | get => "GET"
  | put => "PUT"
  | delete => "DELETE"

/-- The method with this name, in any case. -/
def ofName? (s : String) : Option HttpMethod :=
  let capitals := Text.upper s
  all.find? fun m => m.name == capitals

/-- The complaint about a name of no method. -/
def unsupported (s : String) : String := s!"Unsupported HTTP method: {s}"

end HttpMethod

/-- The direction in which results are sorted. -/
inductive SortDirection
  | ascending
  | descending
  deriving DecidableEq, Repr

namespace SortDirection

/-- Both directions. -/
def all : List SortDirection := [ascending, descending]

/-- The name of a direction. -/
def name : SortDirection → String
  | ascending => "asc"
  | descending => "desc"

end SortDirection

/-- The language that models are generated for. -/
inductive TargetLanguage
  | sailsJs
  deriving DecidableEq, Repr

namespace TargetLanguage

/-- All languages. -/
def all : List TargetLanguage := [sailsJs]

/-- The name of a language. -/
def name : TargetLanguage → String
  | sailsJs => "Sails.js"

/-- The number of a language in stored rows. -/
def code : TargetLanguage → UInt8
  | sailsJs => 1

/-- The language with this number. -/
def ofCode? (code : UInt8) : Option TargetLanguage := all.find? fun l => l.code == code

theorem ofCode?_code (l : TargetLanguage) : ofCode? l.code = some l := by cases l; rfl

end TargetLanguage

end SchemaForge
