import RecordQuery.Backend
import RecordQuery.Sql.Quoted

/-!
# SQL clauses

A query becomes the condition of a `where`, with placeholders for the bindings, so literals
travel beside the SQL and never in it.

* The whole clause stands in one pair of parentheses.
* A comparison is the field, the comparator and the placeholder, with spaces between.
* A connective inside another one stands in parentheses, except as the left operand of the same
  connective, so that chains grouped to the left stay flat.

The dialects differ in placeholders (`?` or `$1`, `$2`, …) and in how they reach into a JSON column.
-/

set_option autoImplicit false

namespace RecordQuery
namespace Sql

/-- A flavour of SQL. -/
inductive Dialect where
  | sqlite
  | postgres
deriving DecidableEq, Repr

/-- The JSON path of the keys below a column. -/
def jsonPath (keys : List String) : String := "$" ++ String.join (keys.map label)

/-- The arrows to the keys below a column, the last of which takes the value as text. -/
def arrows : List String → String
  | [] => ""
  | [key] => "->>" ++ text key
  | key :: keys => "->" ++ text key ++ arrows keys

/-- A field, which is a column or a value inside a JSON column. -/
def Dialect.reference (d : Dialect) (path : FieldPath) : String :=
  match d, path.nested with
  | .sqlite, [] => identifier path.root
  | .sqlite, keys => "json_extract(" ++ identifier path.root ++ ", " ++ text (jsonPath keys) ++ ")"
  | .postgres, keys => identifier path.root ++ arrows keys

/-- The mark for the binding with index `i`. -/
def Dialect.mark (d : Dialect) (i : Nat) : String :=
  match d with
  | .sqlite => "?"
  | .postgres => "$" ++ toString (i + 1)

/-- A condition in SQL and the connective at its top, if there is one. -/
structure Condition where
  sql : String
  connective : Option Connective
deriving DecidableEq, Repr

/-- `s` in parentheses. -/
def parenthesized (s : String) : String := "(" ++ s ++ ")"

namespace Condition

/-- The condition as the left operand of `parent`. -/
def asLeft (c : Condition) (parent : Connective) : String :=
  match c.connective with
  | none => c.sql
  | some top => if top = parent then c.sql else parenthesized c.sql

/-- The condition as the right operand of a connective. -/
def asRight (c : Condition) : String :=
  match c.connective with
  | none => c.sql
  | some _ => parenthesized c.sql

/-- Two conditions under a connective. -/
def connect (connective : Connective) (left right : Condition) : Condition :=
  ⟨left.asLeft connective ++ " " ++ connective.keyword ++ " " ++ right.asRight, some connective⟩

end Condition

/-- The condition of one comparison. -/
def Dialect.comparison (d : Dialect) (path : FieldPath) (op : Comparator) (i : Nat) : Condition :=
  ⟨d.reference path ++ " " ++ op.symbol ++ " " ++ d.mark i, none⟩

/-- SQL as a backend; it cannot fail, and it does not look at the literals. -/
def Dialect.backend (d : Dialect) : Backend Id Condition where
  comparison path op i _ := d.comparison path op i
  connect := Condition.connect

/-- A condition and the literals to bind, in the order of their placeholders. -/
structure Clause where
  sql : String
  bindings : List Literal
deriving DecidableEq, Repr

/-- The clause of a query. -/
def Dialect.clause (d : Dialect) (q : PreparedQuery) : Clause :=
  ⟨parenthesized (q.foldM d.backend).run.sql, q.bindings⟩

/-- The statement that selects the rows of `table` under the clause. -/
def Clause.select (c : Clause) (table : String) : String :=
  "select * from " ++ identifier table ++ " where " ++ c.sql

end Sql
end RecordQuery
