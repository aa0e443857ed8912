import SchemaForge.Compile.Error
import SchemaForge.Config.Text
import SchemaForge.Files.Path
import SchemaForge.Store.Dump

/-!
# Why a job fails
-/

namespace SchemaForge.CommandLine

/-- Why a text cannot be read. -/
inductive ReadError
  | refused (error : OsError)
  | notUtf8

/-- The words for a failure to read. -/
def ReadError.message : ReadError → String
  | refused error => error.message
  | notUtf8 => "stream did not contain valid UTF-8"

/-- Why a job fails. -/
inductive Failure
  | unreadableConfig (path : HostPath) (error : ReadError)
  | config (error : ConfigError)
  | unreadable (path : HostPath) (error : ReadError)
  | snapshot (error : DumpError)
  | compile (error : CompileError)
  | unwritable (path : HostPath) (error : OsError)

namespace Failure

/-- The words for a failure. -/
def message : Failure → String
  | unreadableConfig path error => s!"Failed to read config file {path.text}: {error.message}"
  | config error => s!"Invalid configuration: {error.message}"
  | unreadable path error => s!"Failed to read {path.text}: {error.message}"
  | snapshot error => error.message
  | compile error => error.message
  | unwritable path error => s!"Failed to write {path.text}: {error.message}"

/-- The words for what is behind a failure, where there is such a thing. -/
def cause? : Failure → Option String
  | unreadableConfig _ error => some error.message
  | config error => some error.message
  | compile error => error.cause?
  | _ => none

/-- The report of a failure: its message and, after an empty line, its cause. -/
def report (f : Failure) : String :=
  s!"Error: {f.message}\n" ++ match f.cause? with
    | some cause => s!"\nCaused by:\n    {cause}\n"
    | none => ""

end Failure

end SchemaForge.CommandLine
