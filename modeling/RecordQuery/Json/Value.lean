import RecordQuery.Double

/-!
# JSON values

`Json` is a JSON text read: records are values of this type.  An object holds its members in the
order of their names, by code point, and each name once; `Json.insert` keeps both so.

A number is kept as an integer where 64 bits hold it, with or without a sign, and as a double
otherwise.  The two kinds are never mixed up: `10` and `10.0` are different values of `Json`, and
they are written differently.
-/

set_option autoImplicit false

namespace RecordQuery

/-- A number of a JSON text. -/
inductive Json.Number where
  | integer (value : Int) (inRange : -0x8000000000000000 ≤ value ∧ value < 0x10000000000000000)
  | double (value : Double)
deriving DecidableEq, Repr

/-- A JSON value. -/
inductive Json where
  | null
  | bool (b : Bool)
  | number (n : Json.Number)
  | string (text : String)
  | array (items : List Json)
  | object (members : List (String × Json))
deriving Repr, Inhabited

namespace Json

/-- The integer `n` as a number, when 64 bits hold it. -/
def Number.ofInt? (n : Int) : Option Number :=
  if h : -0x8000000000000000 ≤ n ∧ n < 0x10000000000000000 then some (.integer n h) else none

/-- The members with `name` set to `value`, in place of what it was before. -/
def insert (name : String) (value : Json) : List (String × Json) → List (String × Json)
  | [] => [(name, value)]
  | (name', value') :: members =>
    if name < name' then (name, value) :: (name', value') :: members
    else if name = name' then (name, value) :: members
    else (name', value') :: insert name value members

/-- The member called `name`. -/
def member? (name : String) : List (String × Json) → Option Json
  | [] => none
  | (name', value) :: members => if name = name' then some value else member? name members

end Json
end RecordQuery
