import LayeredConfig.Command.Run
import LayeredConfig.Dotenv
import LayeredConfig.Logging

/-!
# The program

A run of the whole program: variables from a file, the command line, logging, and the task. An error
that a task does not deal with itself ends the program with a code of its own.
-/

namespace LayeredConfig.Command

/-- Exit code of a program that could not do its work. See `SPEC_FULL.md:263–264`. -/
def fatalError : Nat := 5

/-- Exit code for a command line that cannot be read. -/
def usageError : Nat := 2

/-- A run of the whole program up to its exit code. -/
structure Session where
  code : Nat
  transcript : Transcript

/-- The text for a command line that names no task. -/
def UsageError.message : UsageError → String
  | .unknownArgument => "unexpected argument"
  | .invalidSubcommand => "unrecognized subcommand"
  | .missingSubcommand | .helpForNothing =>
    "one of the subcommands is required: " ++ Text.join ", " subcommandNames
  | .missingArgument => "a required argument is missing"
  | .missingValue => "an option has no value"
  | .invalidValue => "invalid value for an option"
  | .invalidPort cause => "invalid port: " ++ cause.message
  | .tooManyValues => "unexpected value for an option"
  | .repeated => "an option is given twice"
  | .help => "subcommands: " ++ Text.join ", " subcommandNames
  | .version => "conflux"

/-- Whether nothing is wrong: help or the version was asked for. -/
def UsageError.isRequest : UsageError → Bool
  | .help | .version => true
  | _ => false

/-- Settings for logging. If the settings cannot be loaded, the task will say so. -/
def logSettings (w : World) (i : Invocation) : LogSettings :=
  match Settings.loadOrDefault w i.settingsPath with
  | .ok s => s.logging
  | .error _ => {}

/-- Start logging and run the task. -/
def Invocation.session (i : Invocation) (w : World) : Session :=
  match Logging.start w (i.logLevel.getD "warn") (logSettings w i) with
  | .error fault =>
    let t : Transcript := { world := w }
    ⟨fatalError, t.warn ("Failed to initialize logging: " ++ (Error.configuration fault).message)⟩
  | .ok w =>
    let r := i.run w
    match r.result with
    | .ok code => ⟨code, r.transcript⟩
    | .error e => ⟨fatalError, r.transcript.warn ("Error: " ++ e.message)⟩

/-- Run the program. -/
def session (w : World) (args : List String) : Session :=
  let w := Dotenv.load w
  match Invocation.ofArguments w args with
  | .ok i => i.session w
  | .error e =>
    let t : Transcript := { world := w }
    if e.isRequest then ⟨success, t.print e.message⟩ else ⟨usageError, t.warn e.message⟩

/-- The paths that a session may look at, as far as the files that are known tell. -/
def pathsOfInterest (w : World) (args : List String) : List String :=
  let w := Dotenv.load w
  match Invocation.ofArguments w args with
  | .error _ => [".env"]
  | .ok i =>
    let output := match i.task with
      | .exportHistory (some path) _ => [path]
      | _ => []
    let s := (Settings.loadOrDefault w i.settingsPath).toOption.getD {}
    let sources := s.sources.legacyPaths ++ [s.sources.mainPath, s.sources.connectionsPath]
    [".env", i.settingsPath, s.logging.path] ++ output ++ sources.map w.expandHome

end LayeredConfig.Command
