/-!
# The manual

The program explains itself: `Manual.overview` lists the topics and `Manual.Topic.text` holds a page
for each.  A topic goes by several names, in letters of either case.
-/

set_option autoImplicit false

namespace RecordQuery
namespace Manual

/-- A page of the manual. -/
inductive Topic where
  | queries
  | operators
  | arithmetic
  | sql
  | errors
deriving DecidableEq, Repr

/-- The topic a name stands for, in letters of either case. -/
def Topic.ofName? (name : String) : Option Topic :=
  match String.ofList (name.toList.map Char.toLower) with
  | "syntax" | "query" | "queries" => some queries
  | "operators" | "ops" | "comparators" => some operators
  | "arithmetic" | "math" | "eval" => some arithmetic
  | "sql" | "render" | "bindings" => some sql
  | "errors" | "error" => some errors
  | _ => none

/-- The topics and a summary. -/
def overview : String :=
  r#"PMQL DOCUMENTATION

PMQL is a small filter language. A query compares record fields against
literal values and joins comparisons with AND / OR. Literals never become
part of the generated SQL; they are bound as parameters.

DOCUMENTATION TOPICS

  syntax            Fields, literals, grouping and precedence
  operators         Comparators and logical connectives
  arithmetic        Integer arithmetic mode (pmql eval)
  sql               How compiled queries render to parameterized SQL
  errors            Syntax and evaluation errors

QUICK REFERENCE

  foo = "bar"                       Equality
  data.first_name = "Taylor"        Nested field
  age >= 18 AND name LIKE "A%"      Conjunction
  a = 1 OR (b = 2 AND c = 3)        Explicit grouping

Run 'pmql docs <topic>' for detailed documentation.
"#

/-- Fields, literals, grouping and precedence. -/
def queriesPage : String :=
  r#"SYNTAX - Queries

COMPARISON
  <field> <comparator> <literal>

    Example:
      Query:  foo = "bar"

FIELDS
  Letters, digits and underscores, starting with a letter or underscore.
  Dots separate nested segments.

    Example:
      data.first_name     reads record["data"]["first_name"]

    Constraints:
      - No empty segments ("a..b" and "a." are errors)
      - Field names are case-sensitive

LITERALS
  "text"      String in double quotes. \" and \\ are the only escapes.
  42          Integer (digits only)

GROUPING AND PRECEDENCE
  AND binds tighter than OR. Equal precedence groups left to right.

    a = 1 AND b = 2 OR c = 3 AND d = 4
      means (a = 1 AND b = 2) OR (c = 3 AND d = 4)

  Parentheses override the default grouping:

    a = 1 AND (b = 2 OR c = 3)
"#

/-- Comparators and connectives. -/
def operatorsPage : String :=
  r#"OPERATORS

COMPARATORS
  =        Equal
  !=       Not equal
  <  <=    Less than, less than or equal
  >  >=    Greater than, greater than or equal
  LIKE     Wildcard match: % any run of characters, _ exactly one
           The pattern must be a string.

CONNECTIVES
  AND      Both sides must match
  OR       Either side must match

  Keywords are upper-case. "and" is an ordinary field name.
"#

/-- Integer arithmetic. -/
def arithmeticPage : String :=
  r#"ARITHMETIC

  pmql eval '<expression>'

  Integers combined with + - * / and parentheses.
  * and / bind tighter than + and -; equal precedence groups left to right.
  Division truncates toward zero.

    Examples:
      1+1          => 2
      2*(1+5)      => 12
      7/2          => 3

  Division by zero and 64-bit overflow are evaluation errors.
"#

/-- The SQL of a query. -/
def sqlPage : String :=
  r#"SQL RENDERING

  pmql compile '<query>' [--dialect sqlite|postgres]

  Prints the clause, its bindings and the predicate tree as JSON.

    Query:    foo = "bar" AND cat = "dog"
    SQL:      ("foo" = ? and "cat" = ?)
    Bindings: ["bar", "dog"]

NESTED FIELDS
  sqlite     json_extract("data", '$."first_name"')
  postgres   "data"->>'first_name'

PLACEHOLDERS
  sqlite     ?
  postgres   $1, $2, ... in binding order
"#

/-- What can go wrong. -/
def errorsPage : String :=
  r#"ERRORS

SYNTAX ERRORS
  Reported with the 0-based character position of the problem.
  Nothing is executed when a query has a syntax error.

    data.first_name = "Taylor""
      syntax error at position 26: unexpected quote after string literal

    foo = "bar" cat = "dog"
      syntax error at position 12: unexpected 'cat' after complete expression

EVALUATION ERRORS
  Arithmetic only: division by zero and integer overflow.
"#

/-- The page on a topic. -/
def Topic.text : Topic → String
  | queries => queriesPage
  | operators => operatorsPage
  | arithmetic => arithmeticPage
  | sql => sqlPage
  | errors => errorsPage

/-- What is said of a name that stands for no topic. -/
def unknownTopic (name : String) : String :=
  "Unknown topic: '" ++ name ++ "'\nRun 'pmql docs' to see available topics."

end Manual
end RecordQuery
