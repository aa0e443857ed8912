import SchemaForge.Text.Blank
import SchemaForge.Text.Quoted

/-!
# Rules for names

Object and attribute names end up in generated code and in file names, so they are plain identifiers.
Project names are directories of the archive, action identifiers are parts of addresses, and routes
are absolute paths without blanks. Each rule answers the first fault it finds; lengths count
characters.
-/

namespace SchemaForge

/-- The fields that a rule checks. -/
inductive NamedField
  | projectName
  | objectName
  | attributeName
  | actionName
  | actionIdentifier
  | route
  | description
  deriving DecidableEq, Repr

/-- The field in words. -/
def NamedField.label : NamedField → String
  | projectName => "project name"
  | objectName => "object name"
  | attributeName => "attribute name"
  | actionName => "action name"
  | actionIdentifier => "action identifier"
  | route => "route"
  | description => "description"

/-- What a value of the right length and characters still lacks. -/
inductive Form
  | noLeadingPeriod
  | identifierStart
  | wordsBetweenHyphens
  | rooted
  deriving DecidableEq, Repr

/-- The demand in words. -/
def Form.label : Form → String
  | noLeadingPeriod => "must not start with a period"
  | identifierStart => "must start with a letter, underscore or dollar sign"
  | wordsBetweenHyphens => "hyphens must separate words"
  | rooted => "must start with '/'"

/-- What is wrong with the value of a field. -/
inductive NamingFault
  | empty
  | tooLong (most actual : Nat)
  | badCharacter (c : Char)
  | badForm (form : Form)
  deriving DecidableEq, Repr

/-- A field and what is wrong with its value. -/
structure NamingError where
  field : NamedField
  fault : NamingFault
  deriving DecidableEq, Repr

/-- A character as a complaint about the field shows it: identifiers show it as it is. -/
def NamedField.shown (field : NamedField) (c : Char) : String :=
  match field with
  | projectName | route => Text.quotedChar c
  | _ => String.ofList ['\'', c, '\'']

/-- The words for a fault. -/
def NamingError.message (e : NamingError) : String :=
  let field := e.field.label
  match e.fault with
  | .empty => s!"{field} cannot be empty"
  | .tooLong most actual => s!"{field} exceeds maximum length (max: {most}, got: {actual})"
  | .badCharacter c =>
    s!"{field} contains invalid characters: invalid character: {e.field.shown c}"
  | .badForm form => s!"{field}: {form.label}"

/-- The outcome of a check. -/
abbrev Checked := Except NamingError Unit

namespace Naming

/-- The greatest length of a project name. -/
def projectNameLimit : Nat := 30

/-- The greatest length of an object or attribute name. -/
def identifierLimit : Nat := 30

/-- The greatest length of an action identifier. -/
def actionIdentifierLimit : Nat := 50

/-- The greatest length of a route. -/
def routeLimit : Nat := 255

/-- The greatest length of a description. -/
def descriptionLimit : Nat := 10000

/-- The refusal of a value. -/
def refuse (field : NamedField) (fault : NamingFault) : Checked := .error ⟨field, fault⟩

/-- Is the value at most so long? -/
def checkLength (field : NamedField) (most : Nat) (s : String) : Checked :=
  if most < s.length then refuse field (.tooLong most s.length) else .ok ()

/-- Is every character allowed? -/
def checkCharacters (field : NamedField) (allowed : Char → Bool) (s : String) : Checked :=
  match s.toList.find? fun c => !allowed c with
  | some c => refuse field (.badCharacter c)
  | none => .ok ()

/-- Project names: not blank, no leading period, no slashes or control characters. -/
def checkProjectName (s : String) : Checked := do
  if (Text.trimmed s.toList).isEmpty then refuse .projectName .empty
  checkLength .projectName projectNameLimit s
  if s.toList.head? = some '.' then refuse .projectName (.badForm .noLeadingPeriod)
  checkCharacters .projectName (fun c => !(c == '/' || c == '\\' || Text.isControl c)) s

/-- May an identifier start with the character? -/
def startsIdentifier (c : Char) : Bool := c.isAlpha || c == '_' || c == '$'

/-- May the character stand in an identifier? -/
def inIdentifier (c : Char) : Bool := c.isAlphanum || c == '_' || c == '$'

/-- Identifiers: ASCII letters, digits, underscores and dollar signs, no digit first. -/
def checkIdentifier (field : NamedField) (s : String) : Checked :=
  match s.toList with
  | [] => refuse field .empty
  | first :: _ => do
    checkLength field identifierLimit s
    if !startsIdentifier first then refuse field (.badForm .identifierStart)
    checkCharacters field inIdentifier s

/-- Object names are identifiers. -/
def checkObjectName (s : String) : Checked := checkIdentifier .objectName s

/-- Attribute names are identifiers. -/
def checkAttributeName (s : String) : Checked := checkIdentifier .attributeName s

/-- May the character stand in an action identifier? -/
def inActionIdentifier (c : Char) : Bool := c.isLower || c.isDigit || c == '-'

/-- Do two hyphens stand next to each other? -/
def hasDoubleHyphen : List Char → Bool
  | '-' :: '-' :: _ => true
  | _ :: rest => hasDoubleHyphen rest
  | [] => false

/-- Action identifiers: words of small ASCII letters and digits with single hyphens between them. -/
def checkActionIdentifier (s : String) : Checked := do
  if s.isEmpty then refuse .actionIdentifier .empty
  checkLength .actionIdentifier actionIdentifierLimit s
  checkCharacters .actionIdentifier inActionIdentifier s
  if s.toList.head? = some '-' || s.toList.getLast? = some '-' || hasDoubleHyphen s.toList then
    refuse .actionIdentifier (.badForm .wordsBetweenHyphens)

/-- Routes: absolute, without blanks or control characters. -/
def checkRoute (s : String) : Checked := do
  if s.isEmpty then refuse .route .empty
  checkLength .route routeLimit s
  if s.toList.head? ≠ some '/' then refuse .route (.badForm .rooted)
  checkCharacters .route (fun c => !(Text.isBlank c || Text.isControl c)) s

/-- Descriptions are bounded in length only. -/
def checkDescription (s : String) : Checked := checkLength .description descriptionLimit s

/-- A description that may be missing. -/
def checkDescription? (s? : Option String) : Checked :=
  match s? with
  | some s => checkDescription s
  | none => .ok ()

/-- May the character stand in the name of a file? -/
def inFileName (c : Char) : Bool :=
  !(['/', '\\', ':', '*', '?', '"', '<', '>', '|'].contains c || Text.isControl c)

/-- A text as the name of a file: characters that may not stand in one become underscores. -/
def fileName (s : String) : String :=
  String.ofList (s.toList.map fun c => if inFileName c then c else '_')

end Naming

end SchemaForge
