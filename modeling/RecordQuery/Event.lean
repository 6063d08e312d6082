/-!
# Events

What the library reports about its own work, for a host to log.  Each completed stage reports one
event with counts and never a value taken from a text or a record.
-/

set_option autoImplicit false

namespace RecordQuery

/-- A completed stage and its counts. -/
inductive Event where
  /-- a sentence was read; `tokens` counts all the tokens its parser has consumed -/
  | tokensParsed (tokens : Nat)
  | queryCompiled (comparisons bindings : Nat)
  | arithmeticEvaluated
  | recordsFiltered (scanned matched : Nat)
deriving DecidableEq, Repr

/-- How much detail a host asks for to see an event. -/
inductive Event.Level where
  | debug
  | trace
deriving DecidableEq, Repr

namespace Event

/-- The reading of tokens is a detail; the other stages are of more interest. -/
def level : Event → Level
  | tokensParsed _ => .trace
  | _ => .debug

/-- The name an event is logged under. -/
def name : Event → String
  | tokensParsed _ => "tokens_parsed"
  | queryCompiled .. => "query_compiled"
  | arithmeticEvaluated => "arithmetic_evaluated"
  | recordsFiltered .. => "records_filtered"

end Event
end RecordQuery
