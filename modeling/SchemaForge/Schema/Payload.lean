import SchemaForge.Schema.Naming
import SchemaForge.Schema.Records
import SchemaForge.Text.Words

/-!
# Payloads

The rules for whole payloads: every named part is checked in order, an action without an identifier
gets one from its name, and an object must not name an attribute twice.
-/

namespace SchemaForge

/-- The identifier of a new action: the one it brings, or the words of its name. -/
def NewAction.resolvedIdentifier (a : NewAction) : String :=
  match a.identifier with
  | some identifier => identifier
  | none => Text.kebab (Text.trim a.friendlyName)

/-- The rules for a new attribute. -/
def NewAttribute.check (a : NewAttribute) : Checked := do
  Naming.checkAttributeName a.name
  Naming.checkDescription? a.description

/-- The rules for a list of new attributes. -/
def NewAttribute.checkAll : List NewAttribute → Checked
  | [] => .ok ()
  | a :: rest => do
    a.check
    checkAll rest

/-- The rules for a new object. -/
def NewObject.check (o : NewObject) : Checked := do
  Naming.checkObjectName o.name
  NewAttribute.checkAll o.attributes

/-- The rules for an action that is to have this identifier. -/
def NewAction.check (a : NewAction) (identifier : String) : Checked := do
  if (Text.trimmed a.friendlyName.toList).isEmpty then Naming.refuse .actionName .empty
  Naming.checkActionIdentifier identifier
  Naming.checkRoute a.route
  Naming.checkDescription? a.description

/-- The names that are repeated in `rest` or have been seen before it, each once, in the order in which
the repetition shows. -/
def repeatedFrom (seen reported : List String) : List String → List String
  | [] => []
  | name :: rest =>
    if name ∈ seen then
      if name ∈ reported then repeatedFrom seen reported rest
      else name :: repeatedFrom seen (name :: reported) rest
    else repeatedFrom (name :: seen) reported rest

/-- The names that occur more than once, each once, by the place of their second occurrence. -/
def repeatedNames (attributes : List NewAttribute) : List String :=
  repeatedFrom [] [] (attributes.map NewAttribute.name)

end SchemaForge
