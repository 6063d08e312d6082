import RecordQuery.Json.Value
import RecordQuery.Sql.Clause

/-!
# Prepared queries as JSON

The printed form of a prepared query is an object with its SQL, its bindings and its predicate.  The
predicate holds no literal, and a binding is a JSON string or a JSON integer as its literal is.

A placeholder is printed as a machine word.  It is one as long as a query has no more bindings than
there are words, and a query with more of them fits into no memory.
-/

set_option autoImplicit false

namespace RecordQuery

namespace Json

/-- A machine word. -/
def ofUInt64 (n : UInt64) : Json :=
  .number (.integer n.toNat (by have := n.toNat_lt; omega))

/-- An integer. -/
def ofInteger (i : Integer) : Json :=
  .number (.integer i.toInt (by have := i.le_toInt; have := i.toInt_lt; omega))

end Json

/-- A literal as JSON. -/
def Literal.toJson : Literal → Json
  | string text => .string text
  | integer value => .ofInteger value

/-- The segments of a path as JSON. -/
def FieldPath.toJson (p : FieldPath) : Json := .array (p.segments.map .string)

/-- A predicate as JSON, the names of the members in order. -/
def Predicate.toJson : Predicate → Json
  | comparison field op placeholder =>
    .object [("field", field.toJson), ("kind", .string "comparison"), ("op", .string op.name),
      ("placeholder", .ofUInt64 placeholder.toUInt64)]
  | logical connective left right =>
    .object [("kind", .string connective.keyword), ("left", left.toJson), ("right", right.toJson)]

/-- A placeholder is printed as it is, if there are not more than fit into 64 bits. -/
theorem PreparedQuery.toNat_toUInt64_of_mem {q : PreparedQuery} {i : Nat}
    (hi : i ∈ q.predicate.placeholders) (h : q.bindings.length ≤ UInt64.size) :
    i.toUInt64.toNat = i := by
  rw [q.placeholders_eq, List.mem_range] at hi
  exact UInt64.toNat_ofNat_of_lt' (Nat.lt_of_lt_of_le hi h)

/-- A query as JSON, with its SQL in the dialect `d`. -/
def PreparedQuery.toJson (d : Sql.Dialect) (q : PreparedQuery) : Json :=
  let clause := d.clause q
  .object [("bindings", .array (clause.bindings.map Literal.toJson)),
    ("predicate", q.predicate.toJson), ("sql", .string clause.sql)]

end RecordQuery
