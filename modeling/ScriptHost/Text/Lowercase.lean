import ScriptHost.Text.CaseTable
/-!
# Lower-casing text

`Text.lowercase` maps every character to its small letter.  Two characters are special: a capital I
with a dot above becomes two characters, and a capital sigma has another small form at the end of a
word.
-/

namespace ScriptHost.Text

/-- Whether a code point lies in one of the closed ranges. -/
def inRanges (ranges : List (Nat × Nat)) (code : Nat) : Bool :=
  ranges.any fun r => r.1 ≤ code && code ≤ r.2

/-- Letters with case, apart from those that case rules skip over. -/
def isCased (c : Char) : Bool := inRanges casedRanges c.toNat

/-- Characters that do not count when the edges of a word are looked for. -/
def isCaseIgnorable (c : Char) : Bool := inRanges ignorableRanges c.toNat

namespace CapitalRun

/-- Whether the code point is one of the capitals of the run. -/
def covers (run : CapitalRun) (code : Nat) : Bool :=
  run.first ≤ code && code ≤ run.last && (code - run.first) % run.step == 0

/-- The small letter of a capital of the run. -/
def lower (run : CapitalRun) (code : Nat) : Char := Char.ofNat ((code : Int) + run.shift).toNat

end CapitalRun

/-- The small letter of a character, or the character itself. -/
def lowerChar (c : Char) : Char :=
  if c.toNat < 0x80 then c.toLower
  else
    match capitalRuns.find? (·.covers c.toNat) with
    | some run => run.lower c.toNat
    | none => c

/-- Whether a text begins, apart from characters that do not count, with a letter that has case. -/
def beginsCased (text : List Char) : Bool :=
  ((text.dropWhile isCaseIgnorable).head?.map isCased).getD false

/-- Lower-cases the characters of a word; `before` holds those already passed, nearest first. -/
def lowerFrom (before : List Char) : List Char → List Char
  | [] => []
  | c :: rest =>
    let small :=
      if c = 'Σ' then [if beginsCased before && !beginsCased rest then 'ς' else 'σ']
      else if c = 'İ' then ['i', '\u0307']
      else [lowerChar c]
    small ++ lowerFrom (c :: before) rest

/-- The text in small letters. -/
def lowercase (text : String) : String := String.ofList (lowerFrom [] text.toList)

/-- Whether two texts are equal when ASCII capitals count as small letters. -/
def equalIgnoringCase (a b : String) : Bool :=
  a.toList.map Char.toLower == b.toList.map Char.toLower

end ScriptHost.Text
