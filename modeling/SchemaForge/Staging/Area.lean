import SchemaForge.Files.Call
import SchemaForge.Staging.Error

/-!
# The staging area

A staging area is a directory with everything below it. Requests name files by paths relative to it;
a path with a step upwards is refused, and so is one that leads out of the area as far as the path,
or else the directory it is in, is there to be looked at.
-/

namespace SchemaForge

/-- A request to the staging area, and the type of the reply. -/
inductive StagingCall : Type → Type
  | read (path : String) : StagingCall (Except StagingError Bytes)
  | write (path : String) (content : Bytes) : StagingCall (Except StagingError Unit)
  | list (path : String) : StagingCall (Except StagingError (List String))
  | delete (path : String) : StagingCall (Except StagingError Unit)
  | makeDirectory (path : String) : StagingCall (Except StagingError Unit)

/-- A staging area, given by the path of its directory. -/
structure StagingArea where
  root : HostPath
  deriving DecidableEq

namespace StagingArea

/-- A request as a script of calls to the file system. -/
abbrev Steps (α : Type) : Type 1 := ExceptT StagingError (Script FileCall) α

/-- A call to the file system whose refusal is dealt with. -/
def ask (c : FileCall (Except OsError α)) (refusal : OsError → StagingError) : Steps α := do
  match ← (Script.ask c : Script FileCall _) with
  | .ok a => return a
  | .error e => throw (refusal e)

/-- Is a location in the directory that the path of the area spells out? The file system is not
asked. -/
def spells (area : StagingArea) (l : Location) : Bool :=
  if area.root.rooted then (area.root.components.map .text).isPrefixOf l else area.root.text.isEmpty

/-- The demand that a location is in the area. Of a root that has no canonical path, what it spells
out counts. -/
def demandInside (area : StagingArea) (path : String) (l : Location) : Steps Unit := do
  match ← (Script.ask (.locate area.root) : Script FileCall _) with
  | .ok root => if !root.isPrefixOf l then throw (.escapesRoot path)
  | .error _ => if !area.spells l then throw (.escapesRoot path)

/-- The path on the file system that a path of a request stands for. -/
def hostPath (area : StagingArea) (path : String) : HostPath :=
  area.root.join (String.ofList (path.toList.dropWhile (· == '/')))

/-- What there is to look at for a path: the path itself, or else the directory that it is in. -/
def anchor (full : HostPath) : Script FileCall (Option HostPath) := do
  if ← Script.ask (.isThere full) then return some full
  match full.parent? with
  | some parent => return if ← Script.ask (.isThere parent) then some parent else none
  | none => return none

/-- The path on the file system, if the request may go there. -/
def resolve (area : StagingArea) (path : String) : Steps HostPath := do
  if (Text.segments path).contains ".." then throw (.leavesRoot path)
  let full := area.hostPath path
  match ← (anchor full : Script FileCall _) with
  | some p => area.demandInside path (← ask (.locate p) (.failed .resolve path))
  | none => pure ()
  return full

/-- A missing file is told apart from other refusals. -/
def missingOr (missing : StagingError) (task : StagingTask) (path : String) (e : OsError) :
    StagingError :=
  if e = .notFound then missing else .failed task path e

/-- The content of a file. -/
def read (area : StagingArea) (path : String) : Steps Bytes := do
  let full ← area.resolve path
  ask (.read full) (missingOr (.fileNotFound path) .readFile path)

/-- A directory and those it is in. -/
def makeAll (p : HostPath) (refusal : OsError → StagingError) : Steps Unit := do
  match ← (makeDirectories p.ancestors : Script FileCall _) with
  | .ok () => return ()
  | .error e => throw (refusal e)

/-- A file with new content; the directories it is in are made where they are missing. -/
def write (area : StagingArea) (path : String) (content : Bytes) : Steps Unit := do
  let full ← area.resolve path
  match full.parent? with
  | some parent => makeAll parent (.failed .makeDirectoryFor path)
  | none => pure ()
  ask (.write full content) (.failed .writeFile path)

/-- The names of files in a directory, sorted; names that are no text are left out. -/
def fileNames (entries : List DirectoryEntry) : List String :=
  let names := entries.filterMap fun entry =>
    match entry.name with
    | .text s => if entry.isFile then some s else none
    | .raw _ => none
  names.mergeSort fun a b => decide (a ≤ b)

/-- The names of the files in a directory. -/
def list (area : StagingArea) (path : String) : Steps (List String) := do
  let full ← area.resolve path
  match ← ask (.list full) (missingOr (.directoryNotFound path) .readDirectory path) with
  | .ok entries => return fileNames entries
  | .error e => throw (.inputOutput s!"Failed to read directory entry: {e.message}")

/-- A file is removed. -/
def delete (area : StagingArea) (path : String) : Steps Unit := do
  let full ← area.resolve path
  ask (.remove full) (missingOr (.fileNotFound path) .deleteFile path)

/-- A missing permission is told apart from other reasons for which a directory is not made. -/
def deniedOr (path : String) (e : OsError) : StagingError :=
  if e.isDenial then .denied s!"Cannot create directory {path}" else .failed .makeDirectory path e

/-- A directory is made, with those it is in. -/
def makeDirectory (area : StagingArea) (path : String) : Steps Unit := do
  let full ← area.resolve path
  makeAll full (deniedOr path)

/-- The calls to the file system that a request makes. -/
def meaning (area : StagingArea) : {β : Type} → StagingCall β → Script FileCall β
  | _, .read path => (area.read path).run
  | _, .write path content => (area.write path content).run
  | _, .list path => (area.list path).run
  | _, .delete path => (area.delete path).run
  | _, .makeDirectory path => (area.makeDirectory path).run

/-- The reply to a request, and the tree after it. -/
def perform (area : StagingArea) {β : Type} (c : StagingCall β) (t : FileTree) : β × FileTree :=
  (area.meaning c).run FileTree.perform t

end StagingArea

end SchemaForge
