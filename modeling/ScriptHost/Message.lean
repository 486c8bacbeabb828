/-!
# Chat messages

A message is a sequence of pieces of text, each with a tone that the chat shows as a colour.
-/

namespace ScriptHost

/-- How a piece of a message is shown. -/
inductive Tone where
  | plain
  | error
  | detail
  | trace
deriving DecidableEq, Repr

/-- A chat message. -/
structure Message where
  parts : List (Tone × String)
deriving DecidableEq, Repr

namespace Message

/-- A message of a single piece. -/
def ofPart (tone : Tone) (text : String) : Message := ⟨[(tone, text)]⟩

/-- A message in the tone of an error. -/
def error (text : String) : Message := ofPart .error text

/-- A message in the tone of a detail. -/
def detail (text : String) : Message := ofPart .detail text

/-- A message in the tone of a stack trace. -/
def trace (text : String) : Message := ofPart .trace text

/-- The words of a message, without their tones. -/
def text (m : Message) : String := String.join (m.parts.map (·.2))

@[simp] theorem text_ofPart (tone : Tone) (s : String) : (ofPart tone s).text = s := by
  simp [ofPart, text, String.join]

end Message

end ScriptHost
