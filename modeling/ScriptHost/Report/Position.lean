import ScriptHost.Error
import ScriptHost.Message
import ScriptHost.Text.Lines
/-!
# Quoted source

A report to a player shows where an error lies: a headline that names the module and the place, the
line of the error with a marker at the place, and in a text of several lines its two neighbours.
-/

namespace ScriptHost.Report

/-- The marker put before the place of an error. -/
def marker : String := " HERE>> "

/-- The first part of the headline: the message and where its code comes from. -/
def originText (message : String) (source : Option SourceText) : String :=
  match source.bind (·.module) with
  | some module => message ++ " in " ++ module
  | none => message ++ " in system chat"

/-- The place of a token, counted from one: by line and column in a text of several lines, by offset
in a text of one.  Counting wraps around after the last position, as it does in a build without
overflow checks; a build with them stops there. -/
def placeText (lineCount : Nat) (token : Token) : String :=
  if 1 < lineCount then s!" at line {token.line + 1}, pos {token.linePos + 1}"
  else s!" at pos {token.pos + 1}"

/-- A line with the marker after its first `column` characters. -/
def markedLine (line : List Char) (column : Nat) : Message :=
  ⟨[(.detail, String.ofList (line.take column)), (.error, marker),
    (.detail, String.ofList (line.drop column))]⟩

/-- The quoted line of an error, between its neighbours.  The line below a line of the source has a
number of its own, since no source has as many lines as there are positions. -/
def quote (lines : List (List Char)) (token : Token) : List Message :=
  let n := token.line.toNat
  match lines[n]? with
  | none => []
  | some line =>
    let neighbour (n : Nat) : List Message :=
      (lines[n]?.map fun l => Message.detail (String.ofList l)).toList
    (if 0 < n then neighbour (n - 1) else [])
      ++ markedLine line token.linePos.toNat :: neighbour (n + 1)

/-- Where an error lies: the headline, and the source around the place when both are known. -/
def position (message : String) (source : Option SourceText) (token : Option Token) :
    List Message :=
  let origin := originText message source
  match source, token with
  | some source, some token =>
    let lines := Text.splitLines source.code.toList
    Message.error (origin ++ placeText lines.length token) :: quote lines token
  | _, _ => [Message.error origin]

end ScriptHost.Report
