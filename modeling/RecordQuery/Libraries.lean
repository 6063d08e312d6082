import RecordQuery.Json.Reader
import RecordQuery.Regex.Bounded

/-!
# Work left to other libraries

Records are read and searched with two libraries from elsewhere, a reader of JSON texts and an
engine for regular expressions.  `Libraries` is a choice of both, and filtering works with any.

`Libraries.builtIn` is a choice that needs nothing from elsewhere.  Its reader gives a number that
64 bits do not hold the nearest double.  Not all readers do so, and some do not even read back the
number that a double is written as.
-/

set_option autoImplicit false

namespace RecordQuery

/-- A reader of JSON texts. -/
structure Json.Reader where
  /-- the value that a text is, or words that say why it is none -/
  read : String → Except String Json

/-- The reader that rounds every number to the nearest double. -/
def Json.Reader.exact : Json.Reader where
  read text :=
    match Json.read? text with
    | some v => .ok v
    | none => .error "not a JSON text"

/-- A choice of libraries. -/
structure Libraries where
  regex : Regex.Engine
  json : Json.Reader

/-- The reader and the engine that are defined here. -/
def Libraries.builtIn : Libraries := ⟨.builtIn, .exact⟩

end RecordQuery
