import SchemaForge.CommandLine.Arguments
import SchemaForge.CommandLine.Error
import SchemaForge.CommandLine.Report
import SchemaForge.Compile.Run

/-!
# Runs of the program

A run is a script of calls to the files around the program and to its standard input. It ends with
an exit status and with what is printed.
-/

namespace SchemaForge.CommandLine

/-- A call to the standard input, and the type of the reply. -/
inductive InputCall : Type → Type
  | readAll : InputCall (Except OsError Bytes)

/-- A call of a run that is replied to with a `β`. -/
inductive RunCall (β : Type) : Type
  | file (c : FileCall β)
  | input (c : InputCall β)

/-- How a run ends. -/
structure Outcome where
  status : UInt32
  output : String
  report : String
  deriving DecidableEq, Repr

/-- A part of a run, which may fail. -/
abbrev Steps (α : Type) : Type 1 := ExceptT Failure (Script RunCall) α

/-- A reply that must not be a refusal. -/
def settle (reply : Except ε α) (failure : ε → Failure) : Steps α :=
  match reply with
  | .ok a => return a
  | .error e => throw (failure e)

/-- A script of calls to the files, as a part of a run. -/
def onFiles (script : Script FileCall α) : Steps α :=
  (script.expand fun c => .ask (.file c) : Script RunCall α)

/-! ### Reading -/

/-- The text in a reply. -/
def textOf (reply : Except OsError Bytes) : Except ReadError String := do
  match Text.ofUtf8? (← reply.mapError .refused) with
  | some s => return s
  | none => throw .notUtf8

/-- Does the path stand for the standard input? A slash after the dash changes nothing. -/
def isStandardInput (p : HostPath) : Bool := !p.rooted && p.components == ["-"]

/-- The settings in a file, or else those where nothing is said. -/
def loadConfig : Option HostPath → Steps CompilerConfig
  | none => return .standard
  | some path => do
    let text ← settle (textOf (← onFiles (.ask (.read path)))) (.unreadableConfig path)
    settle (CompilerConfig.ofText text) .config

/-- The store in a file or in the standard input. A row that names no instant of creation gets some
instant, for no job shows it. -/
def loadStore (path : HostPath) : Steps Store := do
  let reply ←
    if isStandardInput path then (Script.ask (.input .readAll) : Script RunCall _)
    else onFiles (.ask (.read path))
  let text ← settle (textOf reply) (.unreadable path)
  settle (Store.ofDump .epoch (Text.utf8 text)) .snapshot

/-! ### Jobs -/

/-- A project is compiled, and the archive written; a staging root that is given goes before the one
in the settings. The output is the report of the compile. -/
def compile (target : Target) (config? stagingRoot? output? : Option HostPath) : Steps String := do
  let config ← loadConfig config?
  let config := { config with stagingRoot := stagingRoot?.getD config.stagingRoot }
  let store ← loadStore target.snapshot
  let staged := (store.compile config target.owner target.project).expand
    (StagingArea.mk config.stagingRoot).meaning
  let archive ← settle (← onFiles staged) .compile
  let output := output?.getD ⟨archive.fileName⟩
  settle (← onFiles (.ask (.write output archive.bytes))) (.unwritable output)
  return Report.summary output archive.bytes.length archive.members ++ "\n"

/-- The generated files of a project, as a listing. -/
def emit (target : Target) : Steps String := do
  let store ← loadStore target.snapshot
  let generation ← settle (store.generate target.owner target.project) .compile
  return generation.listing

/-- The name and the version of the program. -/
def version : String := "api-creator 0.3.0\n"

/-- How the program is used. -/
def help : String := "\n".intercalate [
  "Compile data models into Sails.js sources",
  "",
  "Usage: api-creator compile --snapshot <PATH> --owner <ID> --project <ID> [OPTIONS]",
  "       api-creator emit --snapshot <PATH> --owner <ID> --project <ID>",
  "",
  "Commands:",
  "  compile  Compile a project into a zip archive",
  "  emit     Print the generated model files of a project",
  "",
  "Options:",
  "      --snapshot <PATH>     Schema snapshot JSON file (`-` for stdin)",
  "      --owner <ID>          Id of the user owning the project",
  "      --project <ID>        Project id",
  "  -c, --config <PATH>       Compiler configuration file (TOML)",
  "      --staging-dir <PATH>  Staging root (overrides the configuration file)",
  "  -o, --output <PATH>       Archive path (default: `<project name>.zip`)",
  "  -h, --help                Print help",
  "  -V, --version             Print version",
  ""]

/-- What a job prints. -/
def Job.output : Job → Steps String
  | compile target config stagingRoot output => CommandLine.compile target config stagingRoot output
  | emit target => CommandLine.emit target
  | showVersion => return version
  | showHelp => return help

/-- How a run with these arguments goes. No call is made before the arguments are understood. -/
def run (arguments : List String) : Script RunCall Outcome :=
  match Job.ofArguments arguments with
  | .error e => return ⟨2, "", s!"error: {e.message}\n"⟩
  | .ok job => do
    match ← job.output.run with
    | .ok output => return ⟨0, output, ""⟩
    | .error failure => return ⟨1, "", failure.report⟩

/-- The reply to a call on a tree of files with this standard input, and the tree after it. -/
def RunCall.perform (input : Bytes) : {β : Type} → RunCall β → FileTree → β × FileTree
  | _, .file c, t => FileTree.perform c t
  | _, .input .readAll, t => (.ok input, t)

end SchemaForge.CommandLine
