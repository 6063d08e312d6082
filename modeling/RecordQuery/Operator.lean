/-!
# Operators

The operators of both grammars and the texts they are shown with: arithmetic operators, the
comparators between a field and a literal, and the connectives between comparisons.
-/

set_option autoImplicit false

namespace RecordQuery

/-- An operator on integers; division truncates toward zero. -/
inductive ArithmeticOp where
  | add
  | subtract
  | multiply
  | divide
deriving DecidableEq, Repr

/-- The character an arithmetic operator is written with. -/
def ArithmeticOp.symbol : ArithmeticOp → String
  | add => "+"
  | subtract => "-"
  | multiply => "*"
  | divide => "/"

/-- A relation between a field and a literal; `like` matches a string against wildcards. -/
inductive Comparator where
  | equal
  | notEqual
  | lessThan
  | lessEqual
  | greaterThan
  | greaterEqual
  | like
deriving DecidableEq, Repr

/-- The spelling of a comparator in SQL and in messages. -/
def Comparator.symbol : Comparator → String
  | equal => "="
  | notEqual => "!="
  | lessThan => "<"
  | lessEqual => "<="
  | greaterThan => ">"
  | greaterEqual => ">="
  | like => "like"

/-- The name of a comparator in the printed form of a query. -/
def Comparator.name : Comparator → String
  | equal => "equal"
  | notEqual => "not_equal"
  | lessThan => "less_than"
  | lessEqual => "less_equal"
  | greaterThan => "greater_than"
  | greaterEqual => "greater_equal"
  | like => "like"

/-- What joins two conditions. -/
inductive Connective where
  | and
  | or
deriving DecidableEq, Repr

/-- The spelling of a connective in SQL and in the printed form of a query. -/
def Connective.keyword : Connective → String
  | and => "and"
  | or => "or"

end RecordQuery
