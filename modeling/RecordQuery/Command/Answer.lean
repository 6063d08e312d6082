import RecordQuery.Command.Arguments
import RecordQuery.Json.Writer
import RecordQuery.Manual
import RecordQuery.Task

/-!
# Answers to command lines

`Command.answer` is the whole program short of its input and output: from the arguments and the text
on standard input to an exit code and two texts.  The code is `0` when there is an answer, `1` when
the text or the records are at fault, and `2` when the command line is.
-/

set_option autoImplicit false

namespace RecordQuery
namespace Command

/-- How the program ends, and what it prints. -/
structure Answer where
  code : Nat
  output : String
  errors : String
deriving DecidableEq, Repr

/-- The name and version of the program. -/
def versionLine : String := "pmql 0.2.0\n"

/-- How the program is called. -/
def usage : String :=
  String.join
    ["Usage: pmql <COMMAND>\n\nCommands:\n",
      "  eval <EXPRESSION>\n",
      "  compile <QUERY> [--dialect sqlite|postgres] [--pretty]\n",
      "  filter <QUERY> [--input <JSON>] [--pretty]\n",
      "  check <TEXT> [--arithmetic]\n",
      "  docs [TOPIC]\n"]

/-- An answer on standard output. -/
def success (output : String) : Answer := ⟨0, output, ""⟩

/-- A message on standard error, because of what was to be worked on. -/
def refusal (message : String) : Answer := ⟨1, "", message ++ "\n"⟩

/-- The answer to a command line that was not read to its end. -/
def Stop.answer : Stop → Answer
  | .help => success usage
  | .version => success versionLine
  | .fault f => ⟨2, "", "error: " ++ f.message ++ "\n\n" ++ usage⟩

/-- The line an outcome is printed as. -/
def outcomeLine (pretty : Bool) : Outcome → String
  | .valid => "Syntax is valid\n"
  | .integer value => toString value.toInt ++ "\n"
  | .json v => v.text (if pretty then .pretty else .compact) ++ "\n"

/-- A page of the manual, or the list of its topics. -/
def manualPage : Option String → Answer
  | none => success Manual.overview
  | some name =>
    match Manual.Topic.ofName? name with
    | some topic => success topic.text
    | none => refusal (Manual.unknownTopic name)

section

variable (libs : Libraries)

/-- Carries a task out and prints what comes of it. -/
def perform (task : Task) (text : String) (pretty : Bool) : Answer :=
  match (task.run libs text).result with
  | .ok outcome => success (outcomeLine pretty outcome)
  | .error failure => refusal failure.message

/-- The answer to an invocation, given the text on standard input unless that is a terminal. -/
def Invocation.answer (input : Option String) : Invocation → Answer
  | .eval text => perform libs .evaluate text false
  | .compile text dialect pretty => perform libs (.compile dialect) text pretty
  | .filter text given pretty => perform libs (.filter (given.or input)) text pretty
  | .check text grammar => perform libs (.check grammar) text false
  | .docs topic => manualPage topic

/-- The answer to a command line. -/
def answer (arguments : List String) (input : Option String) : Answer :=
  match Invocation.ofArguments arguments with
  | .ok invocation => invocation.answer libs input
  | .error stop => stop.answer

end

end Command
end RecordQuery
