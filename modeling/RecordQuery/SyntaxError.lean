import RecordQuery.FieldPath
import RecordQuery.Token

/-!
# Syntax errors

A text that is no sentence of its grammar is refused for one cause at one position.  Causes are
data; `SyntaxError.Cause.message` is the only place where they are put into words.
-/

set_option autoImplicit false

namespace RecordQuery

/-- What would have let a sentence go on. -/
inductive Expectation where
  /-- an operand of an arithmetic expression -/
  | number
  /-- an operand of a query -/
  | condition
  /-- the relation after a field -/
  | comparator (field : FieldPath)
  /-- the literal after a comparator -/
  | literal (op : Comparator)
  /-- the end of a parenthesis opened at `opening` -/
  | closing (opening : Nat)
deriving DecidableEq, Repr

/-- The words for what was expected. -/
def Expectation.message : Expectation → String
  | number => "a number or '('"
  | condition => "a field name or '('"
  | comparator field => "a comparator after field '" ++ field.name ++ "'"
  | literal op => "a string or number after '" ++ op.symbol ++ "'"
  | closing opening => "')' to close '(' at position " ++ toString opening

/-- Why a text is refused. -/
inductive SyntaxError.Cause where
  /-- a dot with no word character after it -/
  | emptySegment
  /-- a quote right after a string literal -/
  | doubledQuote
  /-- a backslash before a character that needs none -/
  | invalidEscape (c : Char)
  | unterminatedString
  /-- an integer literal beyond 64 bits -/
  | numberTooLarge
  /-- an exclamation mark without an equals sign -/
  | loneExclamation
  /-- a character that starts no lexeme -/
  | unrecognized (c : Char)
  /-- a token where another was needed -/
  | misplaced (wanted : Expectation) (found : Token)
  /-- a token after a complete sentence -/
  | trailing (found : Token)
  /-- a number where only a string can be matched against -/
  | patternRequired
  /-- a field name that is no path -/
  | invalidPath
deriving DecidableEq, Repr

/-- The words for a cause. -/
def SyntaxError.Cause.message : SyntaxError.Cause → String
  | emptySegment => "empty segment in field path"
  | doubledQuote => "unexpected quote after string literal"
  | invalidEscape c => "invalid escape sequence '\\" ++ c.toString ++ "'"
  | unterminatedString => "unterminated string literal"
  | numberTooLarge => "numeric literal is too large"
  | loneExclamation => "unrecognized character '!' (did you mean '!='?)"
  | unrecognized c => "unrecognized character '" ++ c.toString ++ "'"
  | misplaced wanted found => "expected " ++ wanted.message ++ ", found " ++ found.inWords
  | trailing found => "unexpected " ++ found.inWords ++ " after complete expression"
  | patternRequired => "LIKE requires a string pattern"
  | invalidPath => "invalid field path"

/-- The cause and the offset of the character or token at fault. -/
structure SyntaxError where
  cause : SyntaxError.Cause
  position : Nat
deriving DecidableEq, Repr

/-- The whole message. -/
def SyntaxError.message (e : SyntaxError) : String :=
  "syntax error at position " ++ toString e.position ++ ": " ++ e.cause.message

end RecordQuery
