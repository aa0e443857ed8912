import SchemaForge.Text.Pieces
import SchemaForge.Text.Utf8

/-!
# Paths

A path is a text with slashes. A file system reads it as steps, which lead from the root or from the
working directory to a place. `parent?` and `ancestors` take a path apart without a look at the file
system.
-/

namespace SchemaForge

/-- A path as it is written. -/
structure HostPath where
  text : String
  deriving DecidableEq, Repr

namespace HostPath

/-- Does the path start at the root? -/
def rooted (p : HostPath) : Bool := p.text.toList.head? == some '/'

/-- The steps of the path; an empty step stands for a slash at the end. -/
def steps (p : HostPath) : List String :=
  let names := Text.segments p.text
  if p.text.toList.getLast? = some '/' && !names.isEmpty then names ++ [""] else names

/-- The names in the path; a step to the same directory counts at the start of a relative path
only. -/
def components (p : HostPath) : List String :=
  match p.rooted, Text.segments p.text with
  | false, "." :: rest => "." :: rest.filter (· ≠ ".")
  | _, names => names.filter (· ≠ ".")

/-- Does a piece between slashes name nothing? -/
def idle (piece : List Char) : Bool := piece.isEmpty || piece == ['.']

/-- The pieces up to the last one that names something. -/
def upToName : List (List Char) → List (List Char)
  | [] => []
  | piece :: rest =>
    match upToName rest with
    | [] => if idle piece then [] else [piece]
    | named => piece :: named

/-- The path with the pieces `first` and `rest` between its slashes; the root has an empty piece
behind its slash. -/
def ofPieces (first : List Char) (rest : List (List Char)) : HostPath :=
  let rest := if first.isEmpty && rest.isEmpty then [[]] else rest
  ⟨String.ofList (first ++ rest.flatMap ('/' :: ·))⟩

/-- The path without its last name, if it has one. What stands before that name is left as it is
written, up to the name that is then the last one. -/
def parent? (p : HostPath) : Option HostPath :=
  match Text.pieces '/' p.text.toList with
  | [] => none
  | first :: rest =>
    let named := upToName rest
    if !named.isEmpty then some (ofPieces first (upToName named.dropLast))
    else if first.isEmpty then none
    else some ⟨""⟩

/-- The path and those of the directories it is in, so many of them, from the inside out. -/
def outward : Nat → HostPath → List HostPath
  | 0, _ => []
  | n + 1, p =>
    p :: match p.parent? with
      | some q => outward n q
      | none => []

/-- The path and those of the directories it is in, up to the root or the working directory. -/
def ancestors (p : HostPath) : List HostPath := outward p.components.length p

/-- A path that is taken from where another one leads. -/
def join (base : HostPath) (relative : String) : HostPath :=
  if relative.toList.head? = some '/' then ⟨relative⟩
  else if base.text.isEmpty || base.text.toList.getLast? = some '/' then ⟨base.text ++ relative⟩
  else ⟨base.text ++ "/" ++ relative⟩

/-- The number of bytes in the path. -/
def size (p : HostPath) : Nat := (Text.utf8 p.text).length

end HostPath

end SchemaForge
