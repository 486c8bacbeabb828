/-!
# Tokens

The lexical units of script text, as a tokenizer delivers them.
-/

namespace ScriptHost

/-- The lexical class of a token. -/
inductive TokenKind where
  | variable
  | stringParam
  | literal
  | hexLiteral
  | operator
  | unaryOperator
  | function
  | openParen
  | comma
  | closeParen
  | marker
deriving DecidableEq, Repr

/-- A token with its text and its place: the offset in the source, the line, and the offset in the
line, all counted from zero.  A place is whatever the tokenizer says, and need not be in the
source. -/
structure Token where
  kind : TokenKind
  surface : String
  pos : UInt64 := 0
  line : UInt64 := 0
  linePos : UInt64 := 0
deriving DecidableEq, Repr

end ScriptHost
