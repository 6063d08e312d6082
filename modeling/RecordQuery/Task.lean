import RecordQuery.Evaluation
import RecordQuery.Libraries
import RecordQuery.Selector
import RecordQuery.Parser
import RecordQuery.Report

/-!
# What can be done with a text

A text is evaluated, rendered as SQL, used to filter records, or only checked.  `Task.run` carries a
task out from the text to its outcome; the first stage that fails decides the failure.  In
particular the query of a filter is prepared before its records are looked at, and its patterns are
made ready after the records have been read.
-/

set_option autoImplicit false

namespace RecordQuery

/-- Why nothing comes of a text. -/
inductive Failure where
  | syntaxError (e : SyntaxError)
  | evaluation (e : EvaluationError)
  | preparation (e : PrepareError)
  /-- there is no selector for the query -/
  | selection (e : SelectionError)
  /-- the records are no JSON text; `message` is what the reader says -/
  | notJson (message : String)
  /-- there are no records to filter -/
  | noInput
  /-- the records are neither an array nor an object; `kind` is what they are -/
  | notRecords (kind : String)
deriving DecidableEq, Repr

/-- The words for a failure. -/
def Failure.message : Failure → String
  | syntaxError e => e.message
  | evaluation e => e.message
  | preparation e => e.message
  | selection e => e.message
  | notJson message => "JSON error: " ++ message
  | noInput => "No input provided. Use --input or pipe JSON records to stdin."
  | notRecords kind =>
    "Input must be a JSON array of records or a single object, got " ++ kind

/-- What a value is called, and the records in it: the items of an array, or an object by itself. -/
def Json.records : Json → Except Failure (List Json)
  | array items => .ok items
  | object members => .ok [object members]
  | null => .error (.notRecords "null")
  | bool _ => .error (.notRecords "boolean")
  | number _ => .error (.notRecords "number")
  | string _ => .error (.notRecords "string")

/-- The records written in a text. -/
def readRecords (reader : Json.Reader) (text : String) : Except Failure (List Json) :=
  match reader.read text with
  | .error message => .error (.notJson message)
  | .ok v => v.records

/-- The value of an arithmetic expression. -/
def evaluateText (text : String) : Logged Failure Integer := do
  let e ← (Grammar.arithmetic.parse text).mapError .syntaxError
  e.evaluate.mapError .evaluation

/-- The query that a text is. -/
def prepareText (text : String) : Logged Failure PreparedQuery := do
  let e ← (Grammar.query.parse text).mapError .syntaxError
  e.prepare.mapError .preparation

/-- A text is a query when its tree can be prepared. -/
theorem prepareText_eq_ok_iff {text : String} {q : PreparedQuery} :
    (prepareText text).result = .ok q ↔
      ∃ e, (Grammar.query.parse text).result = .ok e ∧ e.prepare.result = .ok q := by
  rw [prepareText, Logged.result_bind_eq_ok_iff]
  simp only [Logged.result_mapError_eq_ok_iff]

/-- What to do with a text. -/
inductive Task where
  /-- work an arithmetic expression out -/
  | evaluate
  /-- prepare a query and render it as SQL -/
  | compile (dialect : Sql.Dialect)
  /-- find the records that a query matches, among those written in `input` -/
  | filter (input : Option String)
  /-- see whether the text is a sentence -/
  | check (grammar : Grammar)
deriving DecidableEq, Repr

/-- What comes of a text. -/
inductive Outcome where
  | valid
  | integer (value : Integer)
  | json (value : Json)
deriving Repr

/-- Carries a task out on a text. -/
def Task.run (libs : Libraries) (task : Task) (text : String) : Logged Failure Outcome :=
  match task with
  | evaluate => do return .integer (← evaluateText text)
  | compile dialect => do return .json ((← prepareText text).toJson dialect)
  | filter input => do
    let q ← prepareText text
    match input with
    | none => .ofExcept (.error .noInput)
    | some input =>
      let records ← .ofExcept (readRecords libs.json input)
      return .json (.array (← (q.filter libs.regex records).mapError .selection))
  | check grammar => do
    let _ ← (grammar.parse text).mapError .syntaxError
    return .valid

end RecordQuery
