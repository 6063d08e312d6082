import RecordQuery.Json.Token

/-!
# Reading JSON

A JSON text is one value.  It is read token by token; the containers opened so far form a stack, of
which at most `Json.maxDepth` may be open at a time.  If an object names a member more than once,
the last value stays.

This is one reader of several that records may be read with; see `Libraries`.

* `Json.State.step`: what one more token makes of the part read so far.
* `Json.read?`: the value that a text is.
-/

set_option autoImplicit false

namespace RecordQuery
namespace Json

/-- The number of containers that may be open at a time. -/
def maxDepth : Nat := 127

/-- An open container around the value being read. -/
inductive Frame where
  /-- an array with its items so far, the last one first -/
  | array (items : List Json)
  /-- an object with its members so far, and the name of the value being read -/
  | object (members : List (String × Json)) (name : String)
deriving Repr, Inhabited

/-- The part of a text that has been read: the innermost open container and the ones around it. -/
inductive State where
  /-- a value must follow -/
  | value (around : List Frame)
  /-- an array was opened: a value or its end must follow -/
  | arrayStart (around : List Frame)
  /-- an item was read: a comma or the end of the array must follow -/
  | arrayItem (items : List Json) (around : List Frame)
  /-- an object was opened: a name or its end must follow -/
  | objectStart (around : List Frame)
  /-- a name must follow -/
  | nextName (members : List (String × Json)) (around : List Frame)
  /-- a name was read: a colon must follow -/
  | colon (members : List (String × Json)) (name : String) (around : List Frame)
  /-- a member was read: a comma or the end of the object must follow -/
  | objectMember (members : List (String × Json)) (around : List Frame)
  /-- the value of the text was read -/
  | finished (value : Json)
deriving Repr, Inhabited

namespace State

/-- The value `v` inside the containers `around` has been read. -/
def complete (v : Json) : List Frame → State
  | [] => .finished v
  | .array items :: around => .arrayItem (v :: items) around
  | .object members name :: around => .objectMember (insert name v members) around

/-- A token where a value must start. -/
def start (around : List Frame) : Token → Option State
  | .scalar v => some (complete v around)
  | .string s => some (complete (.string s) around)
  | .openArray => if around.length < maxDepth then some (.arrayStart around) else none
  | .openObject => if around.length < maxDepth then some (.objectStart around) else none
  | _ => none

/-- What a token makes of the part read so far, if it fits. -/
def step : State → Token → Option State
  | .value around, t => start around t
  | .arrayStart around, .closeArray => some (complete (.array []) around)
  | .arrayStart around, t => start (.array [] :: around) t
  | .arrayItem items around, .comma => some (.value (.array items :: around))
  | .arrayItem items around, .closeArray => some (complete (.array items.reverse) around)
  | .objectStart around, .closeObject => some (complete (.object []) around)
  | .objectStart around, .string s => some (.colon [] s around)
  | .nextName members around, .string s => some (.colon members s around)
  | .colon members name around, .colon => some (.value (.object members name :: around))
  | .objectMember members around, .comma => some (.nextName members around)
  | .objectMember members around, .closeObject => some (complete (.object members) around)
  | _, _ => none

/-- The value, when all of it has been read. -/
def value? : State → Option Json
  | .finished v => some v
  | _ => none

end State

/-- The value that a text is. -/
def read? (text : String) : Option Json := do
  let tokens ← Token.ofText? text
  let state ← tokens.foldlM State.step (.value [])
  state.value?

end Json
end RecordQuery
