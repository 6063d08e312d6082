import RecordQuery.FieldPath
import RecordQuery.Literal
import RecordQuery.Operator

/-!
# Expressions

`Expr` is the tree both grammars produce.  Arithmetic trees are made of numbers, operations and
groupings; queries are made of comparisons, connectives and groupings.  Parentheses stay in the
tree as `grouping` nodes, so a tree shows how its text was written.

Trees may also be built by hand, and then nodes of both kinds, lone strings and lone fields can
meet; `Expr.nodeName` is what evaluation and preparation call a node they cannot take.
-/

set_option autoImplicit false

namespace RecordQuery

/-- A tree of either grammar. -/
inductive Expr where
  /-- an integer literal -/
  | number (value : Integer)
  /-- a string literal, escapes resolved -/
  | string (text : String)
  /-- a reference to a field -/
  | field (path : FieldPath)
  /-- an operation and the offset of its operator -/
  | arithmetic (op : ArithmeticOp) (left right : Expr) (position : Nat)
  /-- a field set against a literal -/
  | comparison (field : FieldPath) (op : Comparator) (value : Literal)
  /-- two conditions joined by a connective -/
  | logical (connective : Connective) (left right : Expr)
  /-- a tree in parentheses -/
  | grouping (inner : Expr)
deriving DecidableEq, Repr

/-- What a message calls the node at the root. -/
def Expr.nodeName : Expr → String
  | number _ => "number literal"
  | string _ => "string literal"
  | field _ => "field path"
  | arithmetic .. => "arithmetic expression"
  | comparison .. => "comparison"
  | logical .. => "logical expression"
  | grouping _ => "grouping"

end RecordQuery
