/-!
# Lines of a text

Two views of the lines of a text.  `Text.splitLines` cuts at every newline, so that joining the
pieces with newlines gives the text back: it is used where positions in the text matter.
`Text.lines` treats a newline, or a carriage return and a newline, as the end of a line: it is used
to read back what was written line by line.
-/

namespace ScriptHost.Text

/-- Cuts a text at its newlines; the empty text is one empty line. -/
def splitLines (text : List Char) : List (List Char) := text.splitOn '\n'

/-- Drops a carriage return at the end of a line. -/
def dropReturn (line : List Char) : List Char :=
  if line.getLast? = some '\r' then line.dropLast else line

/-- The terminated lines of a text, and what follows the last of them.  A carriage return before the
newline belongs to the line's end; one at the very end of the text does not. -/
def closeLines : List (List Char) → List (List Char)
  | [] => []
  | [last] => if last = [] then [] else [last]
  | line :: rest => dropReturn line :: closeLines rest

/-- The lines of a text. -/
def lines (text : String) : List String :=
  (closeLines (splitLines text.toList)).map String.ofList

/-- The text that has the given lines, each with its newline. -/
def unlines (lines : List String) : String :=
  String.join (lines.map (· ++ "\n"))

end ScriptHost.Text
