/-!
# Quoted SQL text

SQL writes an identifier in double quotes and a text in single quotes, and a quote inside either one
twice.  A label of a JSON path stands in double quotes with a backslash before each quote inside.

* `quoted`: a text between quotes of one kind, inner quotes doubled.
* `identifier`, `text`: the two kinds of SQL.
* `label`: one step of a JSON path.
-/

set_option autoImplicit false

namespace RecordQuery
namespace Sql

/-- `cs` with each `quote` written twice. -/
def doubled (quote : Char) (cs : List Char) : List Char :=
  cs.flatMap fun c ↦ if c = quote then [quote, quote] else [c]

/-- `s` between two of `quote`, the ones inside doubled. -/
def quoted (quote : Char) (s : String) : String :=
  String.ofList (quote :: doubled quote s.toList ++ [quote])

/-- A name as an SQL identifier. -/
def identifier (name : String) : String := quoted '"' name

/-- A text as an SQL literal. -/
def text (s : String) : String := quoted '\'' s

/-- `cs` with a backslash before each double quote. -/
def escaped (cs : List Char) : List Char :=
  cs.flatMap fun c ↦ if c = '"' then ['\\', '"'] else [c]

/-- The step of a JSON path to the key `s`. -/
def label (s : String) : String :=
  String.ofList ('.' :: '"' :: escaped s.toList ++ ['"'])

end Sql
end RecordQuery
