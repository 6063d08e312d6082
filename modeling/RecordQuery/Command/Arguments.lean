import RecordQuery.Parser
import RecordQuery.Sql.Clause

/-!
# Command lines

A command line names a subcommand, a text for it and perhaps options.  Options and the text may come
in any order.

* An option has a long name behind `--`, and most have a letter behind `-`.
* Letters may share one dash.  The value of an option is the next argument, or stands behind `=`, or
  directly behind its letter.
* An argument that starts with a dash is an option, a lone dash excepted.  Behind `--` every
  argument is a text.
* No option and no text may be given twice.

In the place of the subcommand there may be an option that asks for help or for the version, or
`help` and the name of a subcommand.

`Invocation.ofArguments` reads a command line from left to right and stops at the first fault, or at
the first request for help or for the version.
-/

set_option autoImplicit false

namespace RecordQuery
namespace Command

/-- What the program is started for. -/
inductive Subcommand where
  | eval
  | compile
  | filter
  | check
  | docs
deriving DecidableEq, Repr

/-- The subcommand called `name`. -/
def Subcommand.ofName? (name : String) : Option Subcommand :=
  match name with
  | "eval" => some eval
  | "compile" => some compile
  | "filter" => some filter
  | "check" => some check
  | "docs" => some docs
  | _ => none

/-! ## Options -/

/-- An option of some subcommand. -/
inductive Flag where
  | dialect
  | input
  | pretty
  | arithmetic
  | help
deriving DecidableEq, Repr

namespace Flag

/-- The name behind two dashes. -/
def long : Flag → String
  | dialect => "dialect"
  | input => "input"
  | pretty => "pretty"
  | arithmetic => "arithmetic"
  | help => "help"

/-- The letter behind one dash. -/
def letter? : Flag → Option Char
  | dialect => some 'd'
  | input => some 'i'
  | pretty => some 'p'
  | arithmetic => none
  | help => some 'h'

/-- Whether a value goes with the option. -/
def takesValue : Flag → Bool
  | dialect | input => true
  | pretty | arithmetic | help => false

end Flag

/-- The options of a subcommand. -/
def Subcommand.flags : Subcommand → List Flag
  | eval | docs => [.help]
  | compile => [.dialect, .pretty, .help]
  | filter => [.input, .pretty, .help]
  | check => [.arithmetic, .help]

/-! ## Faults -/

/-- Why a command line is refused. -/
inductive Fault where
  | noSubcommand
  | unknownSubcommand (name : String)
  | unexpectedArgument (argument : String)
  | missingText
  | missingValue (flag : Flag)
  | unwantedValue (flag : Flag)
  | repeated (flag : Flag)
  | unknownDialect (name : String)
deriving DecidableEq, Repr

/-- The words for a fault. -/
def Fault.message : Fault → String
  | noSubcommand => "a subcommand is required"
  | unknownSubcommand name => "unrecognized subcommand '" ++ name ++ "'"
  | unexpectedArgument argument => "unexpected argument '" ++ argument ++ "' found"
  | missingText => "a required argument was not provided"
  | missingValue flag => "a value is required for '--" ++ flag.long ++ "' but none was supplied"
  | unwantedValue flag => "no value is expected for '--" ++ flag.long ++ "'"
  | repeated flag => "the argument '--" ++ flag.long ++ "' cannot be used multiple times"
  | unknownDialect name => "invalid value '" ++ name ++ "' for '--dialect'"

/-- What ends the reading of a command line early. -/
inductive Stop where
  | help
  | version
  | fault (f : Fault)
deriving DecidableEq, Repr

/-! ## Reading -/

/-- What the arguments so far have set. -/
structure Settings where
  text : Option String
  dialect : Option Sql.Dialect
  input : Option String
  pretty : Bool
  arithmetic : Bool
deriving DecidableEq, Repr

namespace Settings

/-- Nothing is set. -/
def initial : Settings := ⟨none, none, none, false, false⟩

/-- Takes `argument` for the text. -/
def setText (s : Settings) (argument : String) : Except Stop Settings :=
  match s.text with
  | none => .ok { s with text := some argument }
  | some _ => .error (.fault (.unexpectedArgument argument))

/-- Sets an option that has no value. -/
def setFlag (s : Settings) : Flag → Except Stop Settings
  | .pretty =>
    if s.pretty then .error (.fault (.repeated .pretty)) else .ok { s with pretty := true }
  | .arithmetic =>
    if s.arithmetic then .error (.fault (.repeated .arithmetic))
    else .ok { s with arithmetic := true }
  | .help => .error .help
  | flag => .error (.fault (.missingValue flag))

/-- Sets an option to a value. -/
def setValue (s : Settings) (flag : Flag) (value : String) : Except Stop Settings :=
  match flag with
  | .dialect =>
    if s.dialect.isSome then .error (.fault (.repeated .dialect))
    else if value = "sqlite" then .ok { s with dialect := some .sqlite }
    else if value = "postgres" then .ok { s with dialect := some .postgres }
    else .error (.fault (.unknownDialect value))
  | .input =>
    if s.input.isSome then .error (.fault (.repeated .input))
    else .ok { s with input := some value }
  | flag => .error (.fault (.unwantedValue flag))

end Settings

/-- Whether an argument is an option or the mark behind which there are none. -/
def isOption (argument : String) : Bool :=
  match argument.toList with
  | '-' :: _ :: _ => true
  | _ => false

/-- Reads an option written behind two dashes; if it still wants a value, it is returned too. -/
def readLong (flags : List Flag) (s : Settings) (argument : String) (body : List Char) :
    Except Stop (Settings × Option Flag) := do
  let name := String.ofList (body.takeWhile (· ≠ '='))
  let value := (body.dropWhile (· ≠ '=')).tail
  match flags.find? (·.long = name) with
  | none => throw (.fault (.unexpectedArgument argument))
  | some flag =>
    if body.contains '=' then return (← s.setValue flag (String.ofList value), none)
    else if flag.takesValue then return (s, some flag)
    else return (← s.setFlag flag, none)

/-- Reads the letters behind one dash; if the last one still wants a value, it is returned too. -/
def readLetters (flags : List Flag) (s : Settings) (argument : String) :
    List Char → Except Stop (Settings × Option Flag)
  | [] => .ok (s, none)
  | c :: cs =>
    match flags.find? (·.letter? = some c) with
    | none => .error (.fault (.unexpectedArgument argument))
    | some flag =>
      if flag.takesValue then
        match cs with
        | [] => .ok (s, some flag)
        | '=' :: value => (s.setValue flag (String.ofList value)).map (·, none)
        | value => (s.setValue flag (String.ofList value)).map (·, none)
      else
        match s.setFlag flag with
        | .error stop => .error stop
        | .ok s' => readLetters flags s' argument cs

/-- Reads the arguments behind a subcommand. -/
def readArguments (flags : List Flag) (s : Settings) : List String → Except Stop Settings
  | [] => .ok s
  | argument :: arguments =>
    if argument = "--" then arguments.foldlM Settings.setText s
    else if isOption argument then do
      let (s, wanting) ← match argument.toList with
        | '-' :: '-' :: body => readLong flags s argument body
        | cs => readLetters flags s argument cs.tail
      match wanting, arguments with
      | none, arguments => readArguments flags s arguments
      | some flag, [] => .error (.fault (.missingValue flag))
      | some flag, value :: arguments =>
        if isOption value then .error (.fault (.missingValue flag))
        else do readArguments flags (← s.setValue flag value) arguments
    else do readArguments flags (← s.setText argument) arguments

/-- Reads an option in the place of the subcommand.  It ends the command line: behind one dash the
first letter decides, and what follows that letter is not read. -/
def readLeading (argument : String) : Stop :=
  match argument.toList with
  | '-' :: 'h' :: _ => .help
  | '-' :: 'V' :: _ => .version
  | _ =>
    if argument = "--help" then .help
    else if argument = "--version" then .version
    else .fault (.unexpectedArgument argument)

/-- Reads the arguments of `help`: at most one, the name of a subcommand or `help` itself. -/
def readHelp : List String → Stop
  | [] => .help
  | topic :: arguments =>
    if (Subcommand.ofName? topic).isNone ∧ topic ≠ "help" then .fault (.unknownSubcommand topic)
    else
      match arguments with
      | [] => .help
      | argument :: _ => .fault (.unknownSubcommand argument)

/-! ## Invocations -/

/-- What a command line asks for. -/
inductive Invocation where
  | eval (text : String)
  | compile (text : String) (dialect : Sql.Dialect) (pretty : Bool)
  /-- without `input`, the records are on standard input -/
  | filter (text : String) (input : Option String) (pretty : Bool)
  | check (text : String) (grammar : Grammar)
  | docs (topic : Option String)
deriving DecidableEq, Repr

namespace Invocation

/-- The text of a subcommand that needs one. -/
def requireText (s : Settings) : Except Stop String :=
  match s.text with
  | some text => .ok text
  | none => .error (.fault .missingText)

/-- What a subcommand with these settings asks for. -/
def ofSettings (c : Subcommand) (s : Settings) : Except Stop Invocation := do
  match c with
  | .eval => return eval (← requireText s)
  | .compile => return compile (← requireText s) (s.dialect.getD .sqlite) s.pretty
  | .filter => return filter (← requireText s) s.input s.pretty
  | .check => return check (← requireText s) (if s.arithmetic then .arithmetic else .query)
  | .docs => return docs s.text

/-- What a command line asks for; one for a page of help or for the version ends there. -/
def ofArguments : List String → Except Stop Invocation
  | [] => .error (.fault .noSubcommand)
  | name :: arguments =>
    if isOption name then .error (readLeading name)
    else if name = "help" then .error (readHelp arguments)
    else
      match Subcommand.ofName? name with
      | none => .error (.fault (.unknownSubcommand name))
      | some c => do ofSettings c (← readArguments c.flags .initial arguments)

end Invocation
end Command
end RecordQuery
