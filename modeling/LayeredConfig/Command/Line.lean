import LayeredConfig.Command.Port
import LayeredConfig.Keyed
import LayeredConfig.Text.Split

/-!
# Command lines

How the words of a command line are read. An option is long or one letter; its value follows in the
same word or as the next one, which then does not look like an option. A lone `--` ends the options.
An option whose value has not come, or is not checked yet, is pending: it is settled when the next
option or argument is known, so that an unknown one is reported first.
-/

namespace LayeredConfig.Command

/-- What is wrong with a command line, or asked of it in place of a command. -/
inductive UsageError where
  | unknownArgument
  | invalidSubcommand
  | missingSubcommand
  | missingArgument
  | missingValue
  | invalidValue
  | invalidPort (cause : PortError)
  | tooManyValues
  | repeated
  | help
  | helpForNothing
  | version
  deriving DecidableEq, Repr

/-- What an option takes or does. -/
inductive Take where
  | switch
  | text
  | boolean
  | port
  | help
  | version
  deriving DecidableEq, Repr

/-- Whether an option has a value. -/
def Take.hasValue : Take → Bool
  | .text | .boolean | .port => true
  | .switch | .help | .version => false

/-- What was given for an option. -/
inductive Given where
  | switched
  | text (s : String)
  | boolean (b : Bool)
  | port (p : Port)

/-- An option. -/
structure OptionRule where
  long : String
  short : Option Char := none
  take : Take

/-- What may stand on a command line. -/
structure Grammar where
  options : List OptionRule
  arguments : List String := []
  subcommands : List String := []

/-- What is wrong with one argument more: where a subcommand is expected it is none. -/
def Grammar.excess (g : Grammar) : UsageError :=
  if g.subcommands.isEmpty then .unknownArgument else .invalidSubcommand

/-- An option that is not settled yet, and its value if it has come. -/
structure Pending where
  rule : OptionRule
  value : Option String

/-- What has been read of a command line. -/
structure Progress where
  given : Keyed Given := []
  pending : Option Pending := none
  /-- Arguments still to come. -/
  arguments : List String := []

/-- Read the value of an option. -/
def readValue (take : Take) (s : String) : Except UsageError Given :=
  match take with
  | .boolean =>
    if s = "true" then .ok (.boolean true)
    else if s = "false" then .ok (.boolean false)
    else .error .invalidValue
  | .port => (Port.ofText s).mapError .invalidPort |>.map .port
  | _ => .ok (.text s)

namespace Progress

/-- Note what was given for an option that was not given before. -/
def note (p : Progress) (rule : OptionRule) (read : Except UsageError Given) :
    Except UsageError Progress :=
  if Keyed.contains rule.long p.given then .error .repeated
  else read.map fun g ↦ { p with given := Keyed.insert rule.long g p.given }

/-- Settle the pending option. -/
def settle (p : Progress) : Except UsageError Progress :=
  match p.pending with
  | none => .ok p
  | some ⟨_, none⟩ => .error .missingValue
  | some ⟨rule, some s⟩ => { p with pending := none }.note rule (readValue rule.take s)

/-- Whether an option waits for its value. -/
def awaits (p : Progress) : Bool :=
  match p.pending with
  | some ⟨_, none⟩ => true
  | _ => false

/-- Carry out an option that has no value. -/
def act (p : Progress) (rule : OptionRule) : Except UsageError Progress := do
  let p ← p.settle
  match rule.take with
  | .help => .error .help
  | .version => .error .version
  | _ => p.note rule (.ok .switched)

/-- Take an option and the value in the same word, if there is one. -/
def option (p : Progress) (rule : OptionRule) (attached : Option String) :
    Except UsageError Progress := do
  if rule.take.hasValue then
    let p ← p.settle
    match attached with
    | some s => p.note rule (readValue rule.take s)
    | none => return { p with pending := some ⟨rule, none⟩ }
  else if attached.isSome then .error .tooManyValues
  else p.act rule

/-- Take an argument that is no option. -/
def argument (g : Grammar) (p : Progress) (s : String) : Except UsageError Progress := do
  match p.arguments with
  | [] => .error g.excess
  | name :: others =>
    let p ← p.settle
    return { p with given := Keyed.insert name (.text s) p.given, arguments := others }

/-- Take the letters of a word with short options. A letter with a value takes the rest of the word
for it, without an equals sign in front. -/
def letters (g : Grammar) (p : Progress) : List Char → Except UsageError Progress
  | [] => .ok p
  | c :: rest =>
    match g.options.find? fun rule ↦ rule.short == some c with
    | none => .error .unknownArgument
    | some rule =>
      if rule.take.hasValue then
        p.option rule <|
          match rest with
          | [] => none
          | '=' :: value => some (String.ofList value)
          | value => some (String.ofList value)
      else do
        let p ← p.act rule
        letters g p rest

/-- Take a long option: the word after its dashes. -/
def long (g : Grammar) (p : Progress) (word : List Char) : Except UsageError Progress :=
  let (name, attached) := match Text.cutOnce '=' word with
    | some (name, value) => (name, some (String.ofList value))
    | none => (word, none)
  match g.options.find? fun rule ↦ rule.long.toList == name with
  | none => .error .unknownArgument
  | some rule => p.option rule attached

/-- Take a word in front of a lone `--`. -/
def word (g : Grammar) (p : Progress) (s : String) : Except UsageError Progress :=
  match s.toList with
  | '-' :: '-' :: rest => p.long g rest
  | '-' :: c :: rest => p.letters g (c :: rest)
  | _ =>
    match p.pending with
    | some ⟨rule, none⟩ => .ok { p with pending := some ⟨rule, some s⟩ }
    | _ => p.argument g s

end Progress

/-- The subcommand at which the words of a command line end, and the words after it. -/
structure Subcommand where
  name : String
  rest : List String

namespace Grammar

/-- Nothing read yet. -/
def start (g : Grammar) : Progress := { arguments := g.arguments }

/-- Read the words after a lone `--`. None of them is an option or begins a subcommand. -/
def readArguments (g : Grammar) (p : Progress) : List String → Except UsageError Progress
  | [] => .ok p
  | s :: rest =>
    if g.subcommands.contains s then .error .unknownArgument
    else do
      let p ← p.argument g s
      g.readArguments p rest

/-- Read the words of a command line up to a subcommand, or all of them if there is none. -/
def read (g : Grammar) (p : Progress) :
    List String → Except UsageError (Progress × Option Subcommand)
  | [] => .ok (p, none)
  | s :: rest =>
    if g.subcommands.contains s && !p.awaits then .ok (p, some ⟨s, rest⟩)
    else if s = "--" then do
      return (← g.readArguments p rest, none)
    else do
      let p ← p.word g s
      g.read p rest

end Grammar

end LayeredConfig.Command
