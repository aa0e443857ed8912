import SchemaForge.CommandLine.Run

/-!
# The program

The calls of a run are made to the operating system.
-/

namespace SchemaForge.CommandLine

/-- The reason for which the operating system refuses a call. -/
def reasonOf (e : IO.Error) : OsError :=
  match e with
  | .permissionDenied _ 1 _ => .notPermitted
  | .noFileOrDirectory .. => .notFound
  | .permissionDenied _ 13 _ => .accessDenied
  | .alreadyExists .. => .alreadyThere
  | .inappropriateType _ 20 _ => .notDirectory
  | .inappropriateType _ 21 _ => .isDirectory
  | .invalidArgument _ 36 _ | .resourceExhausted _ 36 _ | .otherError 36 _ => .nameTooLong
  | .invalidArgument _ 40 _ | .resourceExhausted _ 40 _ | .otherError 40 _ => .tooManyLinks
  | e => .other (toString e)

/-- The reply to an action: its result, or the reason why it is refused. -/
def reply (action : IO α) : IO (Except OsError α) := do
  match ← action.toBaseIO with
  | .ok a => return .ok a
  | .error e => return .error (reasonOf e)

/-- A path as the operating system is given it. -/
def onHost (p : HostPath) := (IO.FS.DirEntry.mk p.text "").root

/-- The entries of a directory. One that nothing can be said about is no file. -/
def entriesOf (p : HostPath) : IO (List DirectoryEntry) := do
  let entries ← (onHost p).readDir
  entries.toList.mapM fun entry => do
    match ← reply entry.path.symlinkMetadata with
    | .ok data => return ⟨.text entry.fileName, data.type == .file⟩
    | .error _ => return ⟨.text entry.fileName, false⟩

/-- A call to the files, made to the operating system. -/
def makeFileCall : {β : Type} → FileCall β → IO β
  | _, .isThere p => (onHost p).pathExists
  | _, .locate p => reply do
    let path ← IO.FS.realPath p.text
    return (Text.segments path.toString).map .text
  | _, .isDirectory p => (onHost p).isDir
  | _, .makeDirectory p => reply (IO.FS.createDir p.text)
  | _, .read p => reply do return (← IO.FS.readBinFile p.text).toList
  | _, .write p content => reply (IO.FS.writeBinFile p.text content.toByteArray)
  | _, .list p => reply do return .ok (← entriesOf p)
  | _, .remove p => reply (IO.FS.removeFile p.text)

/-- All that is left of a stream. -/
partial def readAll (stream : IO.FS.Stream) (earlier : ByteArray) : IO ByteArray := do
  let bytes ← stream.read 65536
  if bytes.isEmpty then return earlier
  readAll stream (earlier ++ bytes)

/-- A call of a run, made to the operating system. -/
def makeCall : {β : Type} → RunCall β → IO β
  | _, .file c => makeFileCall c
  | _, .input .readAll => reply do return (← readAll (← IO.getStdin) .empty).toList

end SchemaForge.CommandLine

/-- Runs the program with its arguments. -/
def main (arguments : List String) : IO UInt32 := do
  let script := SchemaForge.CommandLine.run arguments
  let outcome ← script.runIn SchemaForge.CommandLine.makeCall
  IO.print outcome.output
  IO.eprint outcome.report
  return outcome.status
