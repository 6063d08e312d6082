import RecordQuery.Integer
import RecordQuery.Operator

/-!
# Tokens

A token is what one lexeme means, together with the lexeme itself and the offset of its first
character.  The kind is settled when the token is read; nothing later looks at the lexeme except
to show it in a message.
-/

set_option autoImplicit false

namespace RecordQuery

/-- What a lexeme means. -/
inductive Token.Kind where
  | number (value : Integer)
  /-- a string literal, escapes resolved -/
  | string (text : String)
  /-- a field name, dots included -/
  | identifier (name : String)
  | operator (op : ArithmeticOp)
  | comparator (op : Comparator)
  | connective (connective : Connective)
  | leftParen
  | rightParen
  /-- the end of the text -/
  | finish
deriving DecidableEq, Repr

/-- A lexeme, its meaning and where it starts. -/
structure Token where
  kind : Token.Kind
  /-- the characters as written, quotes included -/
  lexeme : String
  /-- the index of the first character -/
  offset : Nat
deriving DecidableEq, Repr

namespace Token

/-- Whether the token is the end of the text. -/
def isEnd (t : Token) : Bool := t.kind = .finish

/-- What a message calls the token. -/
def inWords (t : Token) : String :=
  match t.kind with
  | .finish => "end of input"
  | .string _ => "string " ++ t.lexeme
  | _ => "'" ++ t.lexeme ++ "'"

end Token
end RecordQuery
