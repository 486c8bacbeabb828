import ScriptHost.Decimal.Numeral
import ScriptHost.Toml.Item
/-!
# Parts of a settings document

The smallest parts of a settings document: blanks and comments, keys, strings, numbers, dates.  A
`Parser` takes a part off the front of the text, or fails.
-/

namespace ScriptHost.Toml

/-- Takes something off the front of a text, or fails. -/
abbrev Parser := StateT (List Char) Option

namespace Parser

/-- The next character, if it satisfies a condition. -/
def satisfy (p : Char → Bool) : Parser Char := do
  match ← get with
  | c :: rest =>
    if p c then
      set rest
      return c
    else failure
  | [] => failure

/-- A certain character. -/
def char (c : Char) : Parser Unit := do
  let _ ← satisfy (· == c)

/-- A certain word. -/
def word (w : String) : Parser Unit := w.toList.forM char

/-- The characters that satisfy a condition, as many as there are. -/
def takeWhile (p : Char → Bool) : Parser (List Char) := do
  let text ← get
  set (text.dropWhile p)
  return text.takeWhile p

/-- At least one character that satisfies a condition. -/
def takeWhile1 (p : Char → Bool) : Parser (List Char) := do
  let first ← satisfy p
  return first :: (← takeWhile p)

/-- Whether the text goes on with a certain character. -/
def nextIs (c : Char) : Parser Bool := return (← get).head? == some c

/-- The end of the text. -/
def atEnd : Parser Unit := do
  if !(← get).isEmpty then failure

/-- A part that may be missing. -/
def option {α : Type} (p : Parser α) : Parser (Option α) := (some <$> p) <|> pure none

/-- At most `n` parts, one after the other. -/
def upTo {α : Type} (p : Parser α) : Nat → Parser (List α)
  | 0 => pure []
  | n + 1 => do
    match ← option p with
    | some a => return a :: (← upTo p n)
    | none => return []

/-- All the parts that follow, each at least a character long. -/
def many {α : Type} (p : Parser α) : Parser (List α) := do upTo p (← get).length

/-- Parts with a separator between them, at least one. -/
def sepBy1 {α : Type} (p : Parser α) (separator : Parser Unit) : Parser (List α) := do
  let first ← p
  return first :: (← many (separator *> p))

end Parser

open ScriptHost.Toml.Parser

/-! ## Blanks -/

/-- A blank within a line. -/
def isBlank (c : Char) : Bool := c == ' ' || c == '\t'

/-- A character that may stand in a comment: anything but a control character other than a tab. -/
def isCommentChar (c : Char) : Bool := c == '\t' || (' ' ≤ c && c != '\x7f')

/-- The blanks that follow in the line. -/
def blanks : Parser Unit := do
  let _ ← takeWhile isBlank

/-- The end of a line. -/
def newline : Parser Unit := char '\n' <|> word "\r\n"

/-- A comment, up to the end of its line. -/
def comment : Parser Unit := do
  char '#'
  let _ ← takeWhile isCommentChar

/-- What may follow a statement in its line. -/
def lineEnd : Parser Unit := do
  blanks
  let _ ← option comment
  newline <|> atEnd

/-- Blanks, comments and ends of lines, where a value may go over several lines. -/
def space : Parser Unit := do
  blanks
  let _ ← many do
    let _ ← option comment
    newline
    blanks

/-! ## Strings -/

/-- A character of a string other than a quote or an escape. -/
def isStringChar (c : Char) : Bool := isCommentChar c

/-- The character with a hexadecimal code of a fixed length. -/
def codePoint (length : Nat) : Parser Char := do
  let digits := (← get).take length
  match digits.mapM hexDigit? with
  | some values =>
    let code := values.foldl (fun n d => 16 * n + d) 0
    if digits.length = length ∧ Nat.isValidChar code then
      set ((← get).drop length)
      return Char.ofNat code
    else failure
  | none => failure

/-- What follows the backslash of an escape. -/
def escaped : Parser Char := do
  match ← satisfy fun _ => true with
  | 'b' => return '\x08'
  | 't' => return '\t'
  | 'n' => return '\n'
  | 'f' => return '\x0c'
  | 'r' => return '\r'
  | '"' => return '"'
  | '\\' => return '\\'
  | 'u' => codePoint 4
  | 'U' => codePoint 8
  | _ => failure

/-- A string between quotes, with escapes. -/
def basicString : Parser (List Char) := do
  char '"'
  let text ← many
    (satisfy (fun c => isStringChar c && c != '"' && c != '\\') <|> (char '\\' *> escaped))
  char '"'
  return text

/-- A string between apostrophes, without escapes. -/
def literalString : Parser (List Char) := do
  char '\''
  let text ← takeWhile fun c => isStringChar c && c != '\''
  char '\''
  return text

/-- The end of a string over several lines: three quotes, before which up to two more belong to the
string. -/
def closingQuotes (quote : Char) : Parser (List Char) := do
  let run ← takeWhile (· == quote)
  if 3 ≤ run.length ∧ run.length ≤ 5 then return run.drop 3 else failure

/-- One or two quotes within a string over several lines. -/
def innerQuotes (quote : Char) : Parser (List Char) := do
  let run ← takeWhile1 (· == quote)
  if run.length ≤ 2 then return run else failure

/-- A string over several lines, made of the given pieces.  A line end right after the opening
quotes does not count. -/
def multilineString (quote : Char) (piece : Parser (List Char)) : Parser (List Char) := do
  char quote
  char quote
  char quote
  let _ ← option newline
  let pieces ← many (piece <|> (newline *> pure ['\n']) <|> innerQuotes quote)
  return pieces.flatten ++ (← closingQuotes quote)

/-- A backslash at the end of a line, which takes away all blanks up to the next character. -/
def lineContinuation : Parser (List Char) := do
  char '\\'
  blanks
  newline
  let _ ← many (newline <|> do let _ ← takeWhile1 isBlank)
  return []

/-- A string over several lines, with escapes. -/
def multilineBasicString : Parser (List Char) :=
  multilineString '"'
    (takeWhile1 (fun c => isStringChar c && c != '"' && c != '\\')
      <|> lineContinuation
      <|> (char '\\' *> ((fun c => [c]) <$> escaped)))

/-- A string over several lines, without escapes. -/
def multilineLiteralString : Parser (List Char) :=
  multilineString '\'' (takeWhile1 fun c => isStringChar c && c != '\'')

/-- Any string. -/
def string : Parser String :=
  String.ofList <$>
    (multilineBasicString <|> basicString <|> multilineLiteralString <|> literalString)

/-! ## Keys -/

/-- A character of a key without quotes. -/
def isKeyChar (c : Char) : Bool := c.isAlphanum || c == '_' || c == '-'

/-- One part of a key. -/
def simpleKey : Parser String :=
  String.ofList <$> (basicString <|> literalString <|> takeWhile1 isKeyChar)

/-- The number of parts that a key, and the number of brackets that a value, may not reach. -/
def nestingLimit : Nat := 80

/-- A key: parts with dots between them. -/
def key : Parser (List String) := do
  let parts ← sepBy1 (blanks *> simpleKey <* blanks) (char '.')
  if parts.length < nestingLimit then return parts else failure

/-! ## Numbers -/

/-- Digits with single underscores between them. -/
def digits (isDigit : Char → Bool) : Parser (List Char) := do
  let first ← satisfy isDigit
  return first :: (← many (option (char '_') *> satisfy isDigit))

/-- A sign, which may be missing; the answer tells whether it is a minus. -/
def sign : Parser Bool := (char '-' *> pure true) <|> (char '+' *> pure false) <|> pure false

/-- A whole number in decimal: no zero before other digits. -/
def wholeDigits : Parser (List Char) := do
  if ← nextIs '0' then
    char '0'
    return ['0']
  else digits Char.isDigit

/-- Whether a number fits into 64 bits with a sign. -/
def fits (n : Int) : Bool := -0x8000000000000000 ≤ n && n < 0x8000000000000000

/-- A whole number written with a letter for its base. -/
def radixInteger (mark : String) (base : Nat) : Parser Int := do
  word mark
  let ds ← digits fun c => (hexDigit? c).any (· < base)
  let n := ds.foldl (fun n c => base * n + (hexDigit? c).getD 0) 0
  if fits n then return n else failure

/-- A whole number in decimal. -/
def decimalInteger : Parser Int := do
  let negative ← sign
  let n := Numeral.ofDigits (← wholeDigits)
  let value : Int := if negative then -n else n
  if fits value then return value else failure

/-- Any whole number. -/
def integer : Parser Int :=
  radixInteger "0x" 16 <|> radixInteger "0o" 8 <|> radixInteger "0b" 2 <|> decimalInteger

/-- The exponent of a number. -/
def exponent : Parser Int := do
  char 'e' <|> char 'E'
  let negative ← sign
  let n := Numeral.ofDigits (← digits Char.isDigit)
  return if negative then -n else n

/-- A number with a point, an exponent, or both.  It must not be too large for a float. -/
def pointNumber : Parser Float := do
  let negative ← sign
  let whole ← wholeDigits
  let fraction ← option (char '.' *> digits Char.isDigit)
  let power ← if fraction.isSome then option exponent else some <$> exponent
  let part := fraction.getD []
  let numeral := Numeral.decimal negative (Numeral.ofDigits (whole ++ part))
    (power.getD 0 - part.length)
  let x := numeral.toFloat
  if x == 1.0 / 0.0 then failure else return x

/-- An infinity or no number. -/
def specialNumber : Parser Float := do
  let negative ← sign
  let x : Float ← (word "inf" *> pure (1.0 / 0.0)) <|> (word "nan" *> pure (0.0 / 0.0))
  return if negative then -x else x

/-! ## Dates and times -/

/-- A number of a fixed count of digits within bounds. -/
def fixedNumber (count low high : Nat) : Parser Nat := do
  let text := (← get).take count
  if text.length = count ∧ text.all Char.isDigit then
    let n := Numeral.ofDigits text
    if low ≤ n ∧ n ≤ high then
      set ((← get).drop count)
      return n
    else failure
  else failure

/-- The number of days of a month. -/
def daysOfMonth (year month : Nat) : Nat :=
  if month = 2 then
    if year % 4 = 0 ∧ (year % 100 ≠ 0 ∨ year % 400 = 0) then 29 else 28
  else if month ∈ [4, 6, 9, 11] then 30
  else 31

/-- A date. -/
def date : Parser Unit := do
  let year ← fixedNumber 4 0 9999
  char '-'
  let month ← fixedNumber 2 1 12
  char '-'
  let _ ← fixedNumber 2 1 (daysOfMonth year month)

/-- A time of day. -/
def timeOfDay : Parser Unit := do
  let _ ← fixedNumber 2 0 23
  char ':'
  let _ ← fixedNumber 2 0 59
  char ':'
  let _ ← fixedNumber 2 0 60
  let _ ← option (char '.' *> takeWhile1 Char.isDigit)

/-- The distance of a local time from universal time. -/
def timeOffset : Parser Unit := do
  char 'Z' <|> char 'z' <|> do
    char '+' <|> char '-'
    let _ ← fixedNumber 2 0 23
    char ':'
    let _ ← fixedNumber 2 0 59

/-- A date, a time of day, or both. -/
def time : Parser Unit := do
  (do
    date
    let _ ← option do
      char 'T' <|> char 't' <|> char ' '
      timeOfDay
      option timeOffset) <|> timeOfDay

end ScriptHost.Toml
