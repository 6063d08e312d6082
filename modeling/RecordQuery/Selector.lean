import RecordQuery.Backend
import RecordQuery.Like
import RecordQuery.NumberOrder

/-!
# Selecting records

A `Selector` is a query made ready to be tested against records.

* A field is looked up one segment at a time: by name in an object, by index in an array, nowhere
  else.  A field that is missing matches nothing, whatever the comparator.
* A string is compared with a string, by code points, and a number with an integer.  Values of
  different kinds match nothing.
* `LIKE` searches a string for a pattern, and nothing else.

Making a query ready can fail: the engine for regular expressions may refuse a pattern.
-/

set_option autoImplicit false

namespace RecordQuery

/-! ## Looking a field up -/

namespace Json

/-- What stands behind a plus sign, if there is one, and else all of it. -/
def withoutPlus : List Char → List Char
  | '+' :: cs => cs
  | cs => cs

/-- The index a segment denotes: ASCII digits, perhaps behind a plus sign, that say a number of `64`
bits. -/
def index? (segment : String) : Option Nat :=
  let digits := withoutPlus segment.toList
  let index := Nat.ofDigitChars 10 digits 0
  if digits ≠ [] ∧ digits.all Char.isDigit ∧ index < 0x10000000000000000 then some index else none

/-- The part of a value that a segment leads to. -/
def child? (segment : String) : Json → Option Json
  | object members => member? segment members
  | array items => (index? segment).bind (items[·]?)
  | _ => none

/-- The part of a value that a sequence of segments leads to. -/
def lookup? (v : Json) (segments : List String) : Option Json :=
  segments.foldlM (fun v segment ↦ child? segment v) v

end Json

/-! ## Comparing -/

/-- How a stored value compares with a literal of its kind; strings are ordered by code points. -/
def Json.order? : Json → Literal → Option Ordering
  | .string text, .string s => some (compareOfLessAndEq text s)
  | .number n, .integer i => some (n.compare i)
  | _, _ => none

/-- Whether a comparator holds of values in this order; `like` is no order. -/
def Comparator.holds : Comparator → Ordering → Bool
  | equal, o => o = .eq
  | notEqual, o => o ≠ .eq
  | lessThan, o => o = .lt
  | lessEqual, o => o ≠ .gt
  | greaterThan, o => o = .gt
  | greaterEqual, o => o ≠ .lt
  | like, _ => false

/-! ## Selectors -/

/-- Why there is no selector for a query. -/
inductive SelectionError where
  /-- the engine refuses the expression for a pattern; `reason` is what it says -/
  | pattern (reason : String)
deriving DecidableEq, Repr

/-- The words for a query without a selector. -/
def SelectionError.message : SelectionError → String
  | pattern reason => "invalid LIKE pattern: " ++ reason

/-- A condition on records with its literals in place and its patterns made ready. -/
inductive Selector (engine : Regex.Engine) where
  | compare (field : FieldPath) (op : Comparator) (value : Literal)
  | like (field : FieldPath) (pattern : engine.Compiled)
  | logical (connective : Connective) (left right : Selector engine)

namespace Selector

variable {engine : Regex.Engine}

/-- The selector of one comparison. -/
def ofComparison (field : FieldPath) (op : Comparator) (value : Literal) :
    Except SelectionError (Selector engine) :=
  match op, value with
  | .like, .string pattern =>
    match Like.compile engine pattern with
    | .ok compiled => .ok (.like field compiled)
    | .error reason => .error (.pattern reason)
  | _, _ => .ok (.compare field op value)

/-- Whether a record passes. -/
def accepts : Selector engine → Json → Bool
  | compare field op value, record =>
    match (record.lookup? field.segments).bind (·.order? value) with
    | some o => op.holds o
    | none => false
  | like field pattern, record =>
    match record.lookup? field.segments with
    | some (.string text) => engine.isMatch pattern text
    | _ => false
  | logical .and left right, record => left.accepts record && right.accepts record
  | logical .or left right, record => left.accepts record || right.accepts record

/-- Selection as a backend; it fails at the first pattern that is refused. -/
def backend (engine : Regex.Engine) : Backend (Except SelectionError) (Selector engine) where
  comparison field op _ value := ofComparison field op value
  connect connective left right := .ok (.logical connective left right)

end Selector

namespace PreparedQuery

/-- The selector of a query. -/
def selector (engine : Regex.Engine) (q : PreparedQuery) :
    Except SelectionError (Selector engine) :=
  q.foldM (Selector.backend engine)

/-- The records that pass, in order, reported with their number. -/
def filter (engine : Regex.Engine) (q : PreparedQuery) (records : List Json) :
    Logged SelectionError (List Json) := do
  let s ← .ofExcept (q.selector engine)
  let found := records.filter s.accepts
  .report (.recordsFiltered records.length found.length)
  return found

end PreparedQuery
end RecordQuery
