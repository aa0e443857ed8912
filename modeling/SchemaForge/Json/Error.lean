import SchemaForge.Json.Value
import SchemaForge.Number.Shortest
import SchemaForge.Instant.Error
import SchemaForge.Text.Quoted

/-!
# What can be wrong with a JSON text

Two families of causes: the text breaks the grammar, or a well-formed value is not of the shape that
is asked for. `JsonError.message` is the one place that words them.
-/

namespace SchemaForge

namespace Json

/-- Numbers are written plainly while the first digit stands for 10⁻⁵ to 10¹⁵. -/
def plainPower (first : Int) : Bool := -5 ≤ first && first < 16

/-- A number as JSON text. -/
def renderNumber : Number → String
  | .whole i => toString i.val
  | .float x => x.render plainPower

/-- What stood where something else was expected. -/
inductive Found
  | null
  | bool (b : Bool)
  | number (n : Number)
  | text (s : String)
  | sequence
  | map

/-- What was found, as a message names it. -/
def Found.describe : Found → String
  | .null => "null"
  | .bool b => s!"boolean `{b}`"
  | .number (.whole i) => s!"integer `{i.val}`"
  | .number (.float x) => s!"floating point `{x.render plainPower}`"
  | .text s => "string " ++ Text.quoted s
  | .sequence => "sequence"
  | .map => "map"

end Json

open Json in
/-- Why a JSON text or value is refused. -/
inductive JsonError
  | endInValue
  | endInObject
  | endInList
  | endInString
  | expectedValue
  | expectedWord
  | expectedColon
  | expectedCommaOrBrace
  | expectedCommaOrBracket
  | trailingComma
  | keyNotString
  | trailingCharacters
  | invalidNumber
  | numberOutOfRange
  | invalidEscape
  | cutPair
  | loneSurrogate
  | controlCharacter
  | invalidUtf8
  | tooDeep
  | missingField (field : String)
  | duplicateField (field : String)
  | wrongType (found : Found) (expected : String)
  | wrongValue (found : Found) (expected : String)
  | wrongLength (length : Nat) (expected : String)
  | unknownVariant (variant : String) (expected : List String)
  | unknownTypeCode (code : UInt8)
  | unknownTypeLabel (label : String)
  | neitherCodeNorLabel
  | badInstant (error : InstantError)

namespace JsonError

/-- The names between backquotes, as alternatives. -/
def alternatives : List String → String
  | [] => ""
  | [a] => s!"`{a}`"
  | [a, b] => s!"`{a}` or `{b}`"
  | names => "one of " ++ ", ".intercalate (names.map fun n => s!"`{n}`")

/-- The words for a cause. -/
def message : JsonError → String
  | endInValue => "EOF while parsing a value"
  | endInObject => "EOF while parsing an object"
  | endInList => "EOF while parsing a list"
  | endInString => "EOF while parsing a string"
  | expectedValue => "expected value"
  | expectedWord => "expected ident"
  | expectedColon => "expected `:`"
  | expectedCommaOrBrace => "expected `,` or `\x7d`"
  | expectedCommaOrBracket => "expected `,` or `]`"
  | trailingComma => "trailing comma"
  | keyNotString => "key must be a string"
  | trailingCharacters => "trailing characters"
  | invalidNumber => "invalid number"
  | numberOutOfRange => "number out of range"
  | invalidEscape => "invalid escape"
  | cutPair => "unexpected end of hex escape"
  | loneSurrogate => "lone leading surrogate in hex escape"
  | controlCharacter => "control character (\\u0000-\\u001F) found while parsing a string"
  | invalidUtf8 => "invalid unicode code point"
  | tooDeep => "recursion limit exceeded"
  | missingField f => s!"missing field `{f}`"
  | duplicateField f => s!"duplicate field `{f}`"
  | wrongType found expected => s!"invalid type: {found.describe}, expected {expected}"
  | wrongValue found expected => s!"invalid value: {found.describe}, expected {expected}"
  | wrongLength n expected => s!"invalid length {n}, expected {expected}"
  | unknownVariant v expected => s!"unknown variant `{v}`, expected {alternatives expected}"
  | unknownTypeCode code => s!"Unknown attribute type code: {code}"
  | unknownTypeLabel label => s!"Unknown attribute type: {label}"
  | neitherCodeNorLabel => "data did not match any variant of untagged enum Raw"
  | badInstant error => error.message

end JsonError

end SchemaForge
