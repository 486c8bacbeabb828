import ScriptHost.Toml.Lexical
/-!
# Reading a settings document

`Toml.parse?` reads a whole document: a sequence of lines, each a header or a key with its value.
-/

namespace ScriptHost.Toml

open ScriptHost.Toml.Parser

/-- A value without parts. -/
def scalar : Parser Item :=
  (.str <$> string)
    <|> (time *> pure .time)
    <|> (.float <$> specialNumber)
    <|> (.float <$> pointNumber)
    <|> (.int <$> integer)
    <|> (word "true" *> pure (.bool true))
    <|> (word "false" *> pure (.bool false))

/-- Values between brackets, over as many lines as needed; a comma may follow the last. -/
def array (element : Parser Item) : Parser Item := do
  char '['
  space
  let items ← option (sepBy1 (element <* space) (char ',' *> space))
  if items.isSome then
    let _ ← option (char ',' *> space)
  char ']'
  return .array (items.getD [])

/-- A key and its value. -/
def keyValue (element : Parser Item) : Parser (List String × Item) := do
  let path ← key
  char '='
  blanks
  return (path, ← element)

/-- Defines a key with all its parts. -/
def defineAll (table : Table) (entry : List String × Item) : Option Table := do
  let last ← entry.1.getLast?
  table.define entry.1.dropLast last entry.2

/-- Keys and values between braces, in one line. -/
def inlineTable (element : Parser Item) : Parser Item := do
  char '\x7b'
  blanks
  let entries ← option (sepBy1 (keyValue element <* blanks) (char ','))
  char '\x7d'
  let table ← liftM ((entries.getD []).foldlM defineAll Table.root)
  return .table .closed table.entries

/-- A value with at most `n` brackets around its innermost parts. -/
def value : Nat → Parser Item
  | 0 => scalar
  | n + 1 => scalar <|> array (value n) <|> inlineTable (value n)

/-- A line of a document. -/
inductive Statement where
  | table (path : List String)
  | element (path : List String)
  | entry (path : List String) (item : Item)
  | blank

/-- A line of a document. -/
def statement : Parser Statement := do
  blanks
  let s ←
    (do
      word "[["
      let path ← key
      word "]]"
      lineEnd
      return .element path)
    <|> (do
      char '['
      let path ← key
      char ']'
      lineEnd
      return .table path)
    <|> (do
      let (path, item) ← keyValue (value (nestingLimit - 1))
      lineEnd
      return .entry path item)
    <|> (comment *> (newline <|> atEnd) *> pure .blank)
    <|> (newline *> pure .blank)
  return s

/-- A document in the making: its tables, and the header in force. -/
structure Draft where
  root : Table := Table.root
  header : List String := []

namespace Draft

/-- Takes in one more line. -/
def add (d : Draft) : Statement → Option Draft
  | .blank => some d
  | .table path => do
    let last ← path.getLast?
    return { root := ← d.root.openTable path.dropLast last, header := path }
  | .element path => do
    let last ← path.getLast?
    return { root := ← d.root.openElement path.dropLast last, header := path }
  | .entry path item =>
    return { d with root := ← d.root.within d.header (defineAll · (path, item)) }

end Draft

/-- The lines of a document, up to its end. -/
def statements : Parser (List Statement) := many statement <* blanks <* atEnd

/-- Reads a document.  A byte order mark may stand before it. -/
def parse? (text : String) : Option Table := do
  let chars :=
    match text.toList with
    | '\ufeff' :: rest => rest
    | chars => chars
  let (lines, _) ← statements.run chars
  let draft ← lines.foldlM Draft.add {}
  return draft.root

end ScriptHost.Toml
