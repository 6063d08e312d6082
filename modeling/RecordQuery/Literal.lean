import RecordQuery.Integer

/-!
# Literals

A comparison sets a field against a literal.  A literal keeps the kind it was written in: a string
that looks like a number stays a string.
-/

set_option autoImplicit false

namespace RecordQuery

/-- A value written in a query and bound to a placeholder when the query is prepared. -/
inductive Literal where
  | string (text : String)
  | integer (value : Integer)
deriving DecidableEq, Repr

end RecordQuery
