import SchemaForge.Files.Walk
import SchemaForge.Script

/-!
# Calls to a file system

The calls that the program makes to the files around it, and what they do to a file tree. A tree has
no permissions, and every directory is read to its end.
-/

namespace SchemaForge

/-- An entry of a directory. -/
structure DirectoryEntry where
  name : FileName
  isFile : Bool
  deriving DecidableEq

/-- A call, and the type of the reply. -/
inductive FileCall : Type → Type
  /-- Does a path lead anywhere? -/
  | isThere (p : HostPath) : FileCall Bool
  /-- The canonical path, as the location that it names. -/
  | locate (p : HostPath) : FileCall (Except OsError Location)
  | isDirectory (p : HostPath) : FileCall Bool
  | makeDirectory (p : HostPath) : FileCall (Except OsError Unit)
  | read (p : HostPath) : FileCall (Except OsError Bytes)
  | write (p : HostPath) (content : Bytes) : FileCall (Except OsError Unit)
  /-- The entries of a directory. One that is opened may still fail to be read to its end. -/
  | list (p : HostPath) : FileCall (Except OsError (Except OsError (List DirectoryEntry)))
  | remove (p : HostPath) : FileCall (Except OsError Unit)

namespace FileTree

/-- The location that a path leads to. -/
def locate (t : FileTree) (p : HostPath) : Except OsError Location := do
  match ← t.find .node p with
  | .taken l _ => return l
  | .free _ => throw .notFound

/-- Does a path lead anywhere? -/
def isThere (t : FileTree) (p : HostPath) : Bool :=
  match t.find .node p with
  | .ok (.taken _ _) => true
  | _ => false

/-- Does a path lead to a directory? -/
def isDirectory (t : FileTree) (p : HostPath) : Bool :=
  match t.find .node p with
  | .ok (.taken _ .directory) => true
  | _ => false

/-- A new directory. -/
def makeDirectory (t : FileTree) (p : HostPath) : Except OsError FileTree := do
  match ← t.find .entry p with
  | .taken _ _ => throw .alreadyThere
  | .free l => return t.put l .directory

/-- The content of a file. -/
def read (t : FileTree) (p : HostPath) : Except OsError Bytes := do
  match ← t.find .node p with
  | .taken _ (.file content) => return content
  | .taken _ .directory => throw .isDirectory
  | .taken _ (.link _) | .free _ => throw .notFound

/-- A file with new content; the file is made if it is not there. -/
def write (t : FileTree) (p : HostPath) (content : Bytes) : Except OsError FileTree := do
  match ← t.find .output p with
  | .taken l (.file _) | .free l => return t.put l (.file content)
  | .taken _ _ => throw .isDirectory

/-- The entries of a directory. -/
def list (t : FileTree) (p : HostPath) : Except OsError (List DirectoryEntry) := do
  match ← t.find .node p with
  | .taken l .directory =>
    return (t.children l).map fun (name, n) => ⟨name, n matches .file _⟩
  | .taken _ _ => throw .notDirectory
  | .free _ => throw .notFound

/-- An entry that is no directory is removed; a link is removed itself. -/
def remove (t : FileTree) (p : HostPath) : Except OsError FileTree := do
  match ← t.find .entry p with
  | .taken _ .directory => throw .isDirectory
  | .taken l _ => if p.steps.getLast? = some "" then throw .notDirectory else return t.erase l
  | .free _ => throw .notFound

/-- The reply and the tree after a call that may change the tree. -/
def settle (t : FileTree) : Except OsError FileTree → Except OsError Unit × FileTree
  | .ok t' => (.ok (), t')
  | .error e => (.error e, t)

/-- The reply to a call, and the tree after it. What a system answers for canonical paths is left
open: it may fail to name a place that is there, for example where the path from the root is too
long. -/
def performWith (canonical : FileTree → HostPath → Except OsError Location) :
    {β : Type} → FileCall β → FileTree → β × FileTree
  | _, .isThere p, t => (t.isThere p, t)
  | _, .locate p, t => (canonical t p, t)
  | _, .isDirectory p, t => (t.isDirectory p, t)
  | _, .makeDirectory p, t => t.settle (t.makeDirectory p)
  | _, .read p, t => (t.read p, t)
  | _, .write p content, t => t.settle (t.write p content)
  | _, .list p, t => ((t.list p).map .ok, t)
  | _, .remove p, t => t.settle (t.remove p)

/-- The same of a system that names every place that is there. -/
def perform {β : Type} (c : FileCall β) (t : FileTree) : β × FileTree := performWith locate c t

end FileTree

/-- A directory is made, and those it is in where they are missing. The argument is the path of the
directory and the paths of those, from the inside out. -/
def makeDirectories : List HostPath → Script FileCall (Except OsError Unit)
  | [] => return .ok ()
  | p :: outer => do
    match ← Script.ask (.makeDirectory p) with
    | .ok () => return .ok ()
    | .error .notFound =>
      match ← makeDirectories outer with
      | .error e => return .error e
      | .ok () => accept p (← Script.ask (.makeDirectory p))
    | .error e => accept p (.error e)
where
  /-- A directory that is there already is as good as a new one. -/
  accept (p : HostPath) : Except OsError Unit → Script FileCall (Except OsError Unit)
    | .ok () => return .ok ()
    | .error e => do
      if ← Script.ask (.isDirectory p) then return .ok ()
      return .error e

end SchemaForge
