import DocAtlas.Text.Control

/-!
Commands as they are typed.

A command has positional arguments and options. The words of a command line are taken one by one. An
argument that has been met stays pending until the next one is met or no word is left, and only then
is its value looked at; so a word that cannot be placed at all is reported before a value that is
refused.
-/

set_option autoImplicit false

namespace DocAtlas

namespace Command

/-! ## Arguments -/

/-- The commands. -/
inductive Name where
  | convert
  | lookup
  | check
  | schema
  deriving DecidableEq, Repr

/-- The command of a word. -/
def Name.ofWord? : String → Option Name
  | "convert" => some .convert
  | "lookup" => some .lookup
  | "check" => some .check
  | "schema" => some .schema
  | _ => none

/-- The word of a command. -/
def Name.word : Name → String
  | .convert => "convert"
  | .lookup => "lookup"
  | .check => "check"
  | .schema => "schema"

/-- The arguments of all commands. -/
inductive Argument where
  | input
  | path
  | baseDir
  | output
  | strict
  | asyncWrapper
  | help
  | version
  deriving DecidableEq, Repr

namespace Argument

/-- How an argument is written in messages. -/
def shown : Argument → String
  | .input => "<TYPEDOC_JSON>"
  | .path => "<PATH>"
  | .baseDir => "--base-dir <DIR>"
  | .output => "--output <FILE>"
  | .strict => "--strict"
  | .asyncWrapper => "--async-wrapper <NAME>"
  | .help => "--help"
  | .version => "--version"

/-- The name of an option. -/
def long? : Argument → Option String
  | .input => none
  | .path => none
  | .baseDir => some "base-dir"
  | .output => some "output"
  | .strict => some "strict"
  | .asyncWrapper => some "async-wrapper"
  | .help => some "help"
  | .version => some "version"

/-- The letter of an option. -/
def short? : Argument → Option Char
  | .output => some 'o'
  | .help => some 'h'
  | .version => some 'V'
  | _ => none

/-- Whether an option stands alone. -/
def isFlag : Argument → Bool
  | .strict => true
  | .help => true
  | .version => true
  | _ => false

/-- Whether an argument may be given more than once. -/
def isRepeatable (a : Argument) : Bool := a == .asyncWrapper

/-- Whether an argument is the name of a file or directory, which is never empty. -/
def isFileName : Argument → Bool
  | .input => true
  | .baseDir => true
  | .output => true
  | _ => false

end Argument

/-- The positional arguments of a command, all of which are required. -/
def Name.positionals : Name → List Argument
  | .convert => [.input]
  | .lookup => [.input, .path]
  | .check => [.input]
  | .schema => []

/-- The options of a command. -/
def Name.options : Name → List Argument
  | .convert => [.baseDir, .output, .strict, .asyncWrapper, .help]
  | .lookup => [.baseDir, .strict, .asyncWrapper, .help]
  | .check => [.help]
  | .schema => [.help]

/-! ## What is wrong with a command line -/

/-- Why a command line is not understood. -/
inductive UsageError where
  | noCommand
  | unknownCommand (word : String)
  | unexpected (word : String)
  | unexpectedValue (value : String) (argument : Argument)
  | missingValue (argument : Argument)
  | repeated (argument : Argument)
  | missing (arguments : List Argument)
  deriving DecidableEq, Repr

/-- What the program does. -/
def about : String := "Turns TypeDoc JSON into a flat set of documentation entities"

/-- What is wrong in short. A command line without a command is told what the program does, and a
word is repeated without what could steer the terminal. -/
def UsageError.summary : UsageError → String
  | .noCommand => about
  | .unknownCommand word => "error: unrecognized subcommand '" ++ Text.withoutControls word ++ "'"
  | .unexpected word => "error: unexpected argument '" ++ Text.withoutControls word ++ "' found"
  | .unexpectedValue value argument =>
    "error: unexpected value '" ++ Text.withoutControls value ++ "' for '" ++ argument.shown
      ++ "' found; no more were expected"
  | .missingValue argument =>
    "error: a value is required for '" ++ argument.shown ++ "' but none was supplied"
  | .repeated argument =>
    "error: the argument '" ++ argument.shown ++ "' cannot be used multiple times"
  | .missing _ => "error: the following required arguments were not provided:"

/-- What a command line asks for instead of running a command. -/
inductive Early where
  | refused (error : UsageError)
  | help
  | version
  deriving DecidableEq, Repr

/-! ## Words -/

/-- What a word looks like. -/
inductive Word where
  | escape
  | long (name : String) (value : Option String)
  | short (letters : List Char)
  | plain

/-- The part before the first `=`, and the part after it. -/
def splitValue (letters : List Char) : String × Option String :=
  match letters.dropWhile (· ≠ '=') with
  | [] => (String.ofList letters, none)
  | _ :: value => (String.ofList (letters.takeWhile (· ≠ '=')), some (String.ofList value))

/-- What a word looks like. A dash alone is a plain word. -/
def Word.ofString (word : String) : Word :=
  match word.toList with
  | ['-', '-'] => .escape
  | '-' :: '-' :: rest =>
    let (name, value) := splitValue rest
    .long name value
  | '-' :: letter :: rest => .short (letter :: rest)
  | _ => .plain

/-- The option of a name. -/
def longOption? (options : List Argument) (name : String) : Option Argument :=
  options.find? (·.long? == some name)

/-- The option of a letter. -/
def shortOption? (options : List Argument) (letter : Char) : Option Argument :=
  options.find? (·.short? == some letter)

/-! ## Taking words -/

/-- A command line under way. -/
structure Draft where
  /-- The arguments that have been taken, with their values. -/
  given : List (Argument × String) := []
  /-- The argument met last, with its value if it has one yet. -/
  pending : Option (Argument × Option String) := none
  /-- The positional arguments still to come. -/
  positionals : List Argument
  /-- Whether the rest of the words are all positional. -/
  escaped : Bool := false

namespace Draft

/-- Takes an argument with its value. -/
def take (d : Draft) (argument : Argument) (value : Option String) : Except Early Draft :=
  if value = none ∧ !argument.isFlag then .error (.refused (.missingValue argument))
  else if !argument.isRepeatable ∧ d.given.any (·.1 == argument) then
    .error (.refused (.repeated argument))
  else if argument.isFileName ∧ value = some "" then .error (.refused (.missingValue argument))
  else .ok { d with given := d.given ++ [(argument, value.getD "")] }

/-- Takes the pending argument. -/
def settle (d : Draft) : Except Early Draft :=
  match d.pending with
  | none => .ok d
  | some (argument, value) => { d with pending := none }.take argument value

/-- Meets an argument, whose value may follow. -/
def meet (d : Draft) (argument : Argument) (value : Option String) : Except Early Draft :=
  match d.settle with
  | .error e => .error e
  | .ok d =>
    match argument with
    | .help => .error .help
    | .version => .error .version
    | _ =>
      if argument.isFlag then d.take argument none
      else
        match value with
        | some _ => d.take argument value
        | none => .ok { d with pending := some (argument, none) }

/-- Meets a word that is not an option: the value that is waited for, or the next positional
argument. -/
def meetPlain (d : Draft) (word : String) : Except Early Draft :=
  match d.pending, d.escaped with
  | some (argument, none), false => .ok { d with pending := some (argument, some word) }
  | _, _ =>
    match d.positionals with
    | [] => .error (.refused (.unexpected word))
    | argument :: rest =>
      match d.settle with
      | .error e => .error e
      | .ok d => .ok { d with pending := some (argument, some word), positionals := rest }

/-- Meets options given by their letters. What follows the letter of an option with a value is its
value. -/
def meetLetters (options : List Argument) (d : Draft) : List Char → Except Early Draft
  | [] => .ok d
  | letter :: rest =>
    match shortOption? options letter with
    | none => .error (.refused (.unexpected ("-" ++ letter.toString)))
    | some argument =>
      if argument.isFlag then
        match d.meet argument none with
        | .error e => .error e
        | .ok d => meetLetters options d rest
      else
        d.meet argument
          (match rest with
          | [] => none
          | '=' :: value => some (String.ofList value)
          | value => some (String.ofList value))

/-- Meets a word. -/
def meetWord (options : List Argument) (d : Draft) (word : String) : Except Early Draft :=
  if d.escaped then d.meetPlain word
  else
    match Word.ofString word with
    | .escape => .ok { d with escaped := true }
    | .plain => d.meetPlain word
    | .short letters => d.meetLetters options letters
    | .long name value =>
      match longOption? options name, value with
      | none, _ => .error (.refused (.unexpected ("--" ++ name)))
      | some argument, some text =>
        if argument.isFlag then .error (.refused (.unexpectedValue text argument))
        else d.meet argument value
      | some argument, none => d.meet argument none

/-- Meets all words. -/
def meetWords (options : List Argument) (d : Draft) : List String → Except Early Draft
  | [] => .ok d
  | word :: rest =>
    match d.meetWord options word with
    | .error e => .error e
    | .ok d => d.meetWords options rest

/-- The draft, once no word is left. -/
def finish (d : Draft) : Except Early Draft :=
  match d.settle with
  | .error e => .error e
  | .ok d => if d.positionals.isEmpty then .ok d else .error (.refused (.missing d.positionals))

/-- The value of an argument. -/
def value? (d : Draft) (argument : Argument) : Option String := d.given.lookup argument

/-- All values of an argument. -/
def values (d : Draft) (argument : Argument) : List String :=
  (d.given.filter (·.1 == argument)).map (·.2)

end Draft

end Command

/-! ## Commands -/

/-- The options of the commands that convert. -/
structure ConvertOptions where
  baseDir : String
  strict : Bool
  asyncWrappers : List String
  deriving DecidableEq, Repr

/-- A command with its arguments. -/
inductive Command where
  | convert (input : String) (output : Option String) (options : ConvertOptions)
  | lookup (input path : String) (options : ConvertOptions)
  | check (input : String)
  | schema
  deriving DecidableEq, Repr

namespace Command

/-- The options that were given. -/
def Draft.options (d : Draft) : ConvertOptions where
  baseDir := (d.value? .baseDir).getD "."
  strict := (d.value? .strict).isSome
  asyncWrappers := d.values .asyncWrapper

/-- The command that was given. -/
def Draft.command (d : Draft) : Name → Command
  | .convert => .convert ((d.value? .input).getD "") (d.value? .output) d.options
  | .lookup => .lookup ((d.value? .input).getD "") ((d.value? .path).getD "") d.options
  | .check => .check ((d.value? .input).getD "")
  | .schema => .schema

/-- The words after `help`, which name one command at most. -/
def parseHelp : List String → Early
  | [] => .help
  | ["help"] => .help
  | word :: rest =>
    if (Name.ofWord? word).isSome ∨ word = "help" then
      match rest with
      | [] => .help
      | extra :: _ => .refused (.unknownCommand extra)
    else .refused (.unknownCommand word)

/-- The words that stand where a command is asked for and are none. -/
def parseEscaped : List String → Early
  | [] => .refused .noCommand
  | word :: _ =>
    if (Name.ofWord? word).isSome ∨ word = "help" then .refused (.unexpected word)
    else .refused (.unknownCommand word)

/-- Reads a command line. -/
def parse : List String → Except Early Command
  | [] => .error (.refused .noCommand)
  | word :: rest =>
    match Name.ofWord? word with
    | some name =>
      match Draft.meetWords name.options { positionals := name.positionals } rest with
      | .error e => .error e
      | .ok d =>
        match d.finish with
        | .error e => .error e
        | .ok d => .ok (d.command name)
    | none =>
      if word = "help" then .error (parseHelp rest)
      else
        match Word.ofString word with
        | .escape => .error (parseEscaped rest)
        | .plain => .error (.refused (.unknownCommand word))
        | _ =>
          -- Only `--help` and `--version` are known here, and neither lets anything follow.
          match Draft.meetWord [.help, .version] { positionals := [] } word with
          | .error e => .error e
          | .ok _ => .error (.refused .noCommand)

end Command

end DocAtlas
