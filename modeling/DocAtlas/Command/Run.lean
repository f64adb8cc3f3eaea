import DocAtlas.Analyzer
import DocAtlas.Command.Arguments
import DocAtlas.Command.Files
import DocAtlas.Entity.Schema
import DocAtlas.Entity.Writer
import DocAtlas.Text.Terminal

/-!
What commands do.

A command answers on two channels: its result goes to the standard output or to a file, and what
happened on the way goes to the error output, message by message, with the reason last if it failed.
-/

set_option autoImplicit false

namespace DocAtlas

/-! ## Notices -/

/-- A line for the error output. -/
structure Notice where
  level : Level
  message : String
  fields : List (String × FieldValue) := []

/-- A notice about how a command gets on. -/
def Notice.info (message : String) : Notice := { level := .info, message := message }

/-- The text of a notice. -/
def Notice.text (n : Notice) : String :=
  n.level.name ++ " " ++ Text.shown n.message
    ++ String.join (n.fields.map fun (name, value) => " " ++ name ++ "=" ++ value.quoted)

/-- An event as a notice. -/
def Event.notice (e : Event) : Notice := ⟨e.level, e.message, e.fields⟩

/-- The notices of events that are shown. -/
def noticesOf (events : List Event) : List Notice :=
  (events.filter (·.level ≠ .debug)).map Event.notice

/-! ## Outcomes -/

/-- What a command leaves behind. -/
structure Outcome where
  /-- The exit code. -/
  exit : Nat
  /-- The text on the standard output. -/
  output : String
  /-- The messages on the error output, each of which ends a line and may hold more of them. -/
  errors : List String
  deriving DecidableEq, Repr

/-- A line without the carriage return that may end it. -/
def withoutReturn (line : String) : String :=
  match line.toList.getLast? with
  | some '\r' => String.ofList line.toList.dropLast
  | _ => line

/-- The lines of a message. -/
def linesOf (message : String) : List String := (message.splitOn "\n").map withoutReturn

namespace Outcome

/-- The lines on the error output. -/
def errorLines (o : Outcome) : List String := o.errors.flatMap linesOf

/-- Success after some notices. -/
def succeeded (notices : List Notice) (output : String) : Outcome where
  exit := 0
  output := output
  errors := notices.map Notice.text

/-- Failure after some notices. -/
def failed (notices : List Notice) (reason : String) : Outcome where
  exit := 1
  output := ""
  errors := notices.map Notice.text ++ ["Error: " ++ reason]

end Outcome

/-! ## Commands -/

namespace Command

/-- The configuration of a command that runs in the directory `here`. -/
def config (options : ConvertOptions) (here : String) : Config :=
  Config.withAsyncWrappers
    { baseDir := FilePath.absolute here options.baseDir, strict := options.strict }
    options.asyncWrappers

/-- Why an input cannot be read. -/
def unreadable (input : String) (e : FileError) : String :=
  "cannot read " ++ input ++ ": " ++ e.message

/-- Reads an input and goes on with what is in it. -/
def withInput {m : Type → Type} [Monad m] (files : Files m) (input : String) (notices : List Notice)
    (go : String → m Outcome) : m Outcome := do
  match ← files.read input with
  | .error e => return .failed notices (unreadable input e)
  | .ok text => go text

/-- Converts a document, and prints the entities or writes them to a file. -/
def runConvert {m : Type → Type} [Monad m] (files : Files m) (input : String)
    (output : Option String) (config : Config) : m Outcome :=
  let start := Notice.info ("Converting " ++ input ++ "...")
  withInput files input [start] fun text => do
    let attempt : Attempt (Index × List Entity) := do (← parseText text).convert config
    let (result, events) := attempt.outcome
    let notices := start :: noticesOf events
    match result with
    | .error e => return .failed notices e.message
    | .ok (index, entities) =>
      let notices :=
        notices ++ [.info ("Converted " ++ toString entities.length ++ " entities from "
        ++ toString index.size ++ " indexed nodes")]
      let json := (Entity.listToJson entities).indented
      match output with
      | none => return .succeeded notices (json ++ "\n")
      | some file =>
        match ← files.write file json with
        | .error e => return .failed notices e.message
        | .ok () => return .succeeded (notices ++ [.info ("Entities written to " ++ file)]) ""

/-- Converts a document, and prints the entity that a path names. -/
def runLookup {m : Type → Type} [Monad m] (files : Files m) (input path : String)
    (config : Config) :
    m Outcome :=
  withInput files input [] fun text => do
    let attempt : Attempt Analyzer := do Analyzer.ofProject (← parseText text) config
    let (result, events) := attempt.outcome
    let notices := noticesOf events
    match result with
    | .error e => return .failed notices e.message
    | .ok analyzer =>
      match analyzer.resolve path with
      | .error e => return .failed notices e.message
      | .ok entity =>
        let found := Notice.info (path ++ " resolved to " ++ entity.kind ++ " " ++ entity.path.text)
        return .succeeded (notices ++ [found]) (entity.toJson.indented ++ "\n")

/-- Reads a document, and tells where it is not what it should be. -/
def runCheck {m : Type → Type} [Monad m] (files : Files m) (input : String) : m Outcome :=
  withInput files input [] fun text => do
    match (parseText text).outcome.1 with
    | .ok project =>
      let valid := input ++ " is valid (" ++ toString project.children.length
        ++ " top-level declarations)"
      return .succeeded [.info valid] ""
    | .error (.mismatch mismatches) =>
      let reason := input ++ " does not match the TypeDoc schema (" ++ toString mismatches.length
        ++ " errors)"
      return .failed
        (mismatches.map fun mismatch => { level := .error, message := mismatch.text }) reason
    | .error e => return .failed [] e.message

/-- Runs a command in the directory `here`. -/
def run {m : Type → Type} [Monad m] (files : Files m) (here : String) : Command → m Outcome
  | .convert input output options => runConvert files input output (config options here)
  | .lookup input path options => runLookup files input path (config options here)
  | .check input => runCheck files input
  | .schema => return .succeeded [] (Schema.entities.indented ++ "\n")

/-! ## Command lines -/

/-- The name and the version of the program. -/
def version : String := "declscope 0.1.0"

/-- How the program is used. -/
def help : String :=
  "\n".intercalate [
    about,
    "",
    "Usage: declscope <COMMAND>",
    "",
    "Commands:",
    "  convert  Convert a TypeDoc document into documentation entities",
    "  lookup   Look up one entity by a suffix of its path",
    "  check    Validate a document and report where it does not match",
    "  schema   Print the JSON schema of the converted entities",
    "  help     Print this message or the help of the given subcommand(s)",
    "",
    "Options:",
    "  -h, --help     Print help",
    "  -V, --version  Print version",
    ""]

/-- The outcome of a command line that is not understood. -/
def refusal (error : UsageError) : Outcome where
  exit := 2
  output := ""
  errors :=
    match error with
    | .noCommand => [help]
    | .missing arguments => error.summary :: arguments.map ("  " ++ ·.shown)
    | _ => [error.summary, "", "For more information, try '--help'."]

/-- Runs a command line in the directory `here`. -/
def runLine {m : Type → Type} [Monad m] (files : Files m) (here : String) (words : List String) :
    m Outcome :=
  match parse words with
  | .ok command => command.run files here
  | .error .version => return .succeeded [] (version ++ "\n")
  | .error .help => return .succeeded [] help
  | .error (.refused e) => return refusal e

end Command

end DocAtlas
