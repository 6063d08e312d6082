import RecordQuery.Command.Answer

/-!
# The program

Standard input is read only for a filter that is given no records on its command line.
-/

set_option autoImplicit false

open RecordQuery Command

/-- All of standard input, or nothing when it is a terminal. -/
def readInput : IO (Option String) := do
  let stdin ← IO.getStdin
  if ← stdin.isTty then return none
  let mut lines := #[]
  let mut line ← stdin.getLine
  while !line.isEmpty do
    lines := lines.push line
    line ← stdin.getLine
  return some (String.join lines.toList)

/-- Answers the command line. -/
def main (arguments : List String) : IO UInt32 := do
  let input ← match Invocation.ofArguments arguments with
    | .ok (.filter _ none _) => readInput
    | _ => pure none
  let a := answer .builtIn arguments input
  (← IO.getStdout).putStr a.output
  (← IO.getStderr).putStr a.errors
  return UInt32.ofNat a.code
