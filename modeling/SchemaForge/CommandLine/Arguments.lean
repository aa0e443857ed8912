import SchemaForge.Files.Path
import SchemaForge.Schema.Records

/-!
# Arguments of the command line

The first argument names a command, and the others are options with values, in any order. A value
follows its option as the next argument or is attached to it. No option may be given twice.
-/

namespace SchemaForge.CommandLine

/-- What an option sets. -/
inductive Setting
  | snapshot
  | owner
  | project
  | config
  | stagingRoot
  | output
  deriving DecidableEq, Repr

/-- The name of an option, which follows two dashes. -/
def Setting.name : Setting → String
  | snapshot => "snapshot"
  | owner => "owner"
  | project => "project"
  | config => "config"
  | stagingRoot => "staging-dir"
  | output => "output"

/-- The letter of an option, which follows one dash. -/
def Setting.letter? : Setting → Option Char
  | config => some 'c'
  | output => some 'o'
  | _ => none

/-- The options that choose a project. -/
def Setting.ofTarget : List Setting := [snapshot, owner, project]

/-- The options of a compile. -/
def Setting.ofCompile : List Setting := ofTarget ++ [config, stagingRoot, output]

/-- Why arguments cannot be followed. -/
inductive UsageError
  | noCommand
  | unknownCommand (name : String)
  | unknownOption (argument : String)
  | unexpected (argument : String)
  | noValue (s : Setting)
  | badValue (s : Setting) (value : String)
  | repeated (s : Setting)
  | missing (s : Setting)
  deriving DecidableEq, Repr

/-- The words for a mistake in the arguments. -/
def UsageError.message : UsageError → String
  | noCommand => "a command is required"
  | unknownCommand name => s!"unrecognized command '{name}'"
  | unknownOption argument => s!"unknown option '{argument}'"
  | unexpected argument => s!"unexpected argument '{argument}'"
  | noValue s => s!"a value is required for '--{s.name}'"
  | badValue s value => s!"invalid value '{value}' for '--{s.name}'"
  | repeated s => s!"the option '--{s.name}' cannot be used multiple times"
  | missing s => s!"the option '--{s.name}' is required"

/-- A project of a snapshot. -/
structure Target where
  snapshot : HostPath
  owner : UserId
  project : ProjectId
  deriving DecidableEq, Repr

/-- What the program is asked to do. -/
inductive Job
  | compile (target : Target) (config stagingRoot output : Option HostPath)
  | emit (target : Target)
  | showVersion
  | showHelp
  deriving DecidableEq, Repr

/-! ### Values -/

/-- A number that fits in 64 bits, in decimal digits, with or without a plus. -/
def word? (value : String) : Option UInt64 :=
  let digits := match value.toList with
    | '+' :: rest => rest
    | cs => cs
  let n := digits.foldl (fun n c => 10 * n + (c.toNat - '0'.toNat)) 0
  if !digits.isEmpty && digits.all Char.isDigit && n < UInt64.size then some (.ofNat n) else none

/-- A path, which is not empty. -/
def path? (value : String) : Option HostPath := if value.isEmpty then none else some ⟨value⟩

/-- The values of the options given so far. -/
structure Settings where
  snapshot : Option HostPath
  owner : Option UserId
  project : Option ProjectId
  config : Option HostPath
  stagingRoot : Option HostPath
  output : Option HostPath

namespace Settings

/-- No option is given. -/
def empty : Settings := ⟨none, none, none, none, none, none⟩

/-- The value of an option that was not given before. -/
def fresh (s : Setting) (value : String) (earlier : Option α) (read? : String → Option α) :
    Except UsageError (Option α) :=
  match earlier, read? value with
  | _, none => .error (.badValue s value)
  | some _, some _ => .error (.repeated s)
  | none, some a => .ok (some a)

/-- One more option. -/
def set (given : Settings) (s : Setting) (value : String) : Except UsageError Settings := do
  match s with
  | .snapshot => return { given with snapshot := ← fresh s value given.snapshot path? }
  | .owner => return { given with owner := ← fresh s value given.owner word? }
  | .project => return { given with project := ← fresh s value given.project word? }
  | .config => return { given with config := ← fresh s value given.config path? }
  | .stagingRoot => return { given with stagingRoot := ← fresh s value given.stagingRoot path? }
  | .output => return { given with output := ← fresh s value given.output path? }

/-- The value of an option that must be given. -/
def demand (s : Setting) (value : Option α) : Except UsageError α :=
  match value with
  | some a => .ok a
  | none => .error (.missing s)

/-- The project that the options choose. -/
def target (given : Settings) : Except UsageError Target :=
  return ⟨← demand .snapshot given.snapshot, ← demand .owner given.owner,
    ← demand .project given.project⟩

end Settings

/-! ### Options -/

/-- What an argument is to a command. -/
inductive Argument
  | option (s : Setting) (attached : Option String)
  | help
  | wrong (e : UsageError)

/-- Is the argument an option and no value? A single dash is a value. -/
def isOption (argument : String) : Bool := argument.startsWith "-" && argument != "-"

/-- An argument with two dashes: a name, and a value behind an equals sign. -/
def Argument.ofName (known : List Setting) (argument : String) (text : List Char) : Argument :=
  let name := String.ofList (text.takeWhile (· ≠ '='))
  let attached? := match text.dropWhile (· ≠ '=') with
    | [] => none
    | _ :: value => some (String.ofList value)
  match known.find? fun s => s.name == name with
  | some s => .option s attached?
  | none =>
    if name = "help" then if attached?.isSome then .wrong (.unexpected argument) else .help
    else .wrong (.unknownOption argument)

/-- An argument with one dash: a letter, and a value behind it, with or without an equals sign. -/
def Argument.ofLetter (known : List Setting) (argument : String) (letter : Char)
    (text : List Char) : Argument :=
  match known.find? fun s => s.letter? == some letter with
  | some s =>
    match text with
    | [] => .option s none
    | '=' :: value => .option s (some (String.ofList value))
    | value => .option s (some (String.ofList value))
  | none => if letter = 'h' then .help else .wrong (.unknownOption argument)

/-- What an argument is to a command with these options. -/
def Argument.read (known : List Setting) (argument : String) : Argument :=
  match argument.toList with
  | '-' :: '-' :: text => .ofName known argument text
  | '-' :: letter :: text => .ofLetter known argument letter text
  | _ => .wrong (.unexpected argument)

/-- The options among the arguments, or nothing when help is asked for. Two dashes may end them. -/
def readSettings (known : List Setting) (given : Settings) :
    List String → Except UsageError (Option Settings)
  | [] | ["--"] => .ok (some given)
  | argument :: rest =>
    match Argument.read known argument with
    | .help => .ok none
    | .wrong e => .error e
    | .option s (some value) => do readSettings known (← given.set s value) rest
    | .option s none =>
      match rest with
      | [] => .error (.noValue s)
      | value :: rest =>
        if isOption value then .error (.noValue s)
        else do readSettings known (← given.set s value) rest

/-! ### Commands -/

/-- The job of a command with its options. -/
def Job.ofSettings (known : List Setting) (build : Settings → Except UsageError Job)
    (arguments : List String) : Except UsageError Job := do
  match ← readSettings known .empty arguments with
  | some given => build given
  | none => return showHelp

/-- What the program is asked to do. -/
def Job.ofArguments : List String → Except UsageError Job
  | [] => .error .noCommand
  | "compile" :: options =>
    ofSettings Setting.ofCompile
      (fun given => return compile (← given.target) given.config given.stagingRoot given.output)
      options
  | "emit" :: options =>
    ofSettings Setting.ofTarget (fun given => return emit (← given.target)) options
  | ["help"] | ["help", "compile"] | ["help", "emit"] | ["help", "help"] => .ok showHelp
  | "help" :: argument :: _ => .error (.unknownCommand argument)
  | argument :: _ =>
    if argument = "--version" || argument.startsWith "-V" then .ok showVersion
    else if argument = "--help" || argument.startsWith "-h" then .ok showHelp
    else if isOption argument then .error (.unknownOption argument)
    else .error (.unknownCommand argument)

end SchemaForge.CommandLine
