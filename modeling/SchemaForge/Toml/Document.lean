import SchemaForge.Toml.Statement

/-!
# TOML texts

A text as the table that its statements add up to.
-/

namespace SchemaForge.Toml

/-- The table so far, and the path of the table that is open. -/
structure Draft where
  entries : Entries
  path : List String

/-- The table after one more statement. -/
def Draft.add (d : Draft) : Statement → Option Draft
  | .pair path v => do
    return { d with entries := ← Entries.alter (Entries.insert v path) d.path d.entries }
  | .header path => do
    let key ← path.getLast?
    return ⟨← Entries.alter (Entries.openTable key) path.dropLast d.entries, path⟩
  | .element path => do
    let key ← path.getLast?
    return ⟨← Entries.alter (Entries.openElement key) path.dropLast d.entries, path⟩

/-- The table of a text, if it is TOML. A byte order mark before the text does not matter. -/
def parse (s : String) : Option Entries := do
  let cs := match s.toList with
    | '\uFEFF' :: rest => rest
    | cs => cs
  let statements ← statements? (cs.length + 1) cs
  let draft ← statements.foldlM Draft.add ⟨[], []⟩
  return draft.entries

end SchemaForge.Toml
