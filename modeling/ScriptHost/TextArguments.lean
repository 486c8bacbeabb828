import ScriptHost.Binding
import ScriptHost.Decimal.Numeral
import ScriptHost.Error
/-!
# Arguments given as text

A command may pass its arguments as one text.  Each token of the text becomes an argument: a
variable that is defined stands for its binding, other words for themselves, numerals for numbers.
Anything that would have to be evaluated is refused, except a minus before a number.
-/

namespace ScriptHost.TextArguments

/-- Reads a hexadecimal numeral, `0x` and at least one digit. -/
def hexNumeral? (surface : String) : Option Float :=
  match surface.toList with
  | '0' :: x :: digits =>
    if (x = 'x' ∨ x = 'X') ∧ digits ≠ [] then hexadecimal? digits else none
  | _ => none

/-- What is written before a number after a minus. -/
def signText (minus : Bool) : String := if minus then "-" else ""

/-- The number that a numeral stands for, after a minus or not. -/
def number (minus : Bool) (token : Token) : Except InvocationError Binding :=
  let text := signText minus ++ token.surface
  let value? :=
    if token.kind = .hexLiteral then
      (hexNumeral? token.surface).map fun x => if minus then -x else x
    else (Numeral.parse? text).map Numeral.toFloat
  match value? with
  | some x => .ok (.value (.number x))
  | none => .error (.notANumber text)

/-- Turns tokens into arguments.  `minus` tells whether a minus waits for its number; it goes on
waiting after a variable, and is lost at a word. -/
def ofTokens (lookup : String → Option Binding) :
    Bool → List Token → Except InvocationError (List Binding)
  | _, [] => .ok []
  | minus, token :: rest =>
    let word := Binding.value (.str token.surface)
    match token.kind with
    | .variable =>
      match lookup token.surface with
      | some binding => return binding :: (← ofTokens lookup minus rest)
      | none => return word :: (← ofTokens lookup false rest)
    | .stringParam => return word :: (← ofTokens lookup false rest)
    | .literal | .hexLiteral => do
      let first ← number minus token
      return first :: (← ofTokens lookup false rest)
    | .operator | .unaryOperator =>
      if (token.surface = "-" ∨ token.surface = "-u") ∧ !minus then ofTokens lookup true rest
      else .error (.operatorRefused token.surface)
    | .function => .error (.functionRefused token.surface)
    | .openParen | .comma | .closeParen | .marker => .error (.tokenRefused token.surface)

/-- The arguments of a command: coordinates first, then those of the text. -/
def bind (lookup : String → Option Binding) (coords : List Int) (tokens : List Token) :
    Except InvocationError (List Binding) := do
  let given ← ofTokens lookup false tokens
  return coords.map (fun c => .value (.ofInt c)) ++ given

end ScriptHost.TextArguments
