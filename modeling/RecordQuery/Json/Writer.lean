import RecordQuery.Json.Numeral
import RecordQuery.Json.Quoted

/-!
# Writing JSON

A `Json.Layout` says what stands between the parts of a value: nothing at all in `Layout.compact`,
line ends and indentation in `Layout.pretty`.  Empty containers have nothing inside in either.
-/

set_option autoImplicit false

namespace RecordQuery
namespace Json

/-- What stands between the parts of a written value. -/
structure Layout where
  /-- before an item or a closing mark with so many open containers around it -/
  gap : Nat → List Char
  /-- between the name of a member and its value -/
  colon : List Char

/-- No spaces. -/
def Layout.compact : Layout := ⟨fun _ ↦ [], [':']⟩

/-- A line for each item, with two spaces for each container around it. -/
def Layout.pretty : Layout := ⟨fun depth ↦ '\n' :: List.replicate (2 * depth) ' ', [':', ' ']⟩

mutual

/-- The text of a value inside `depth` containers. -/
def write (l : Layout) (depth : Nat) : Json → List Char
  | .null => ['n', 'u', 'l', 'l']
  | .bool true => ['t', 'r', 'u', 'e']
  | .bool false => ['f', 'a', 'l', 's', 'e']
  | .number n => n.text
  | .string s => Quoted.encode s
  | .array [] => ['[', ']']
  | .array (item :: items) =>
    '[' :: l.gap (depth + 1) ++ write l (depth + 1) item ++ writeItems l (depth + 1) items
      ++ l.gap depth ++ [']']
  | .object [] => ['\x7b', '\x7d']
  | .object ((name, value) :: members) =>
    '\x7b' :: l.gap (depth + 1) ++ Quoted.encode name ++ l.colon ++ write l (depth + 1) value
      ++ writeMembers l (depth + 1) members ++ l.gap depth ++ ['\x7d']

/-- The items behind the first one. -/
def writeItems (l : Layout) (depth : Nat) : List Json → List Char
  | [] => []
  | item :: items => ',' :: l.gap depth ++ write l depth item ++ writeItems l depth items

/-- The members behind the first one. -/
def writeMembers (l : Layout) (depth : Nat) : List (String × Json) → List Char
  | [] => []
  | (name, value) :: members =>
    ',' :: l.gap depth ++ Quoted.encode name ++ l.colon ++ write l depth value
      ++ writeMembers l depth members

end

/-- The text of a value. -/
def text (l : Layout) (v : Json) : String := String.ofList (write l 0 v)

end Json
end RecordQuery
