/-!
# Reading bytes as text

`Text.decode` reads a byte string as UTF-8.  When it is not valid, `Utf8Fault` says where the first
bad sequence begins and how long it is, or that the text stops inside a sequence.

The scanner keeps the bytes that the sequence in hand still owes, each as the range it has to lie
in: the range of the second byte is narrower after some first bytes, which rules out overlong
forms, surrogates and values beyond the last code point.
-/

namespace ScriptHost.Text

/-- The first place where a byte string is not UTF-8. -/
structure Utf8Fault where
  /-- The number of bytes before the bad sequence. -/
  index : Nat
  /-- The length of the bad sequence, unless the input ends inside it. -/
  length : Option Nat
deriving DecidableEq, Repr

/-- The wording of a fault. -/
def Utf8Fault.message (fault : Utf8Fault) : String :=
  match fault.length with
  | some n => s!"invalid utf-8 sequence of {n} bytes from index {fault.index}"
  | none => s!"incomplete utf-8 byte sequence from index {fault.index}"

/-- The ranges of the bytes that have to follow a first byte, or `none` if no sequence begins with
it. -/
def followers (first : UInt8) : Option (List (UInt8 × UInt8)) :=
  if first < 0x80 then some []
  else if first < 0xC2 then none
  else if first < 0xE0 then some [(0x80, 0xBF)]
  else if first = 0xE0 then some [(0xA0, 0xBF), (0x80, 0xBF)]
  else if first = 0xED then some [(0x80, 0x9F), (0x80, 0xBF)]
  else if first < 0xF0 then some [(0x80, 0xBF), (0x80, 0xBF)]
  else if first = 0xF0 then some [(0x90, 0xBF), (0x80, 0xBF), (0x80, 0xBF)]
  else if first < 0xF4 then some [(0x80, 0xBF), (0x80, 0xBF), (0x80, 0xBF)]
  else if first = 0xF4 then some [(0x80, 0x8F), (0x80, 0xBF), (0x80, 0xBF)]
  else none

/-- Looks for the first bad sequence.  `owed` is what the sequence that began at `start` still
needs, and `index` is the place of the next byte. -/
def faultFrom (start index : Nat) (owed : List (UInt8 × UInt8)) : List UInt8 → Option Utf8Fault
  | [] => if owed = [] then none else some ⟨start, none⟩
  | b :: rest =>
    match owed with
    | [] =>
      match followers b with
      | some owed' => faultFrom index (index + 1) owed' rest
      | none => some ⟨index, some 1⟩
    | (low, high) :: owed' =>
      if low ≤ b ∧ b ≤ high then faultFrom start (index + 1) owed' rest
      else some ⟨start, some (index - start)⟩

/-- The first place where the bytes are not UTF-8. -/
def fault? (bytes : ByteArray) : Option Utf8Fault := faultFrom 0 0 [] bytes.toList

/-- Reads a byte string as text. -/
def decode (bytes : ByteArray) : Except Utf8Fault String :=
  match String.fromUTF8? bytes with
  | some text => .ok text
  | none => .error ((fault? bytes).getD ⟨0, none⟩)

end ScriptHost.Text
