import ScriptHost.Blob
import ScriptHost.Resource.Key
import ScriptHost.Text.Lines
import ScriptHost.Text.Utf8
/-!
# Storage

What a store of blobs can do.  Every operation may fail, and one that fails may still have changed
something, so the changing operations answer with the store as they leave it.

## Main definitions

* `StoreError`: a failure and what lies behind it.
* `StateStore`: reading, writing, appending lines, deleting.
* `StateStore.readLines`: a resource as lines of text.
-/

namespace ScriptHost

/-- A failure of storage: what could not be done, and the reasons behind it. -/
structure StoreError where
  outermost : String
  causes : List String := []
deriving DecidableEq, Repr

namespace StoreError

/-- The failure with all the reasons behind it. -/
def chainText (e : StoreError) : String := ": ".intercalate (e.outermost :: e.causes)

end StoreError

/-- A store of blobs under keys. -/
class StateStore (σ : Type) where
  /-- The blob under a key. -/
  read : σ → ResourceKey → Except StoreError (Option Blob)
  /-- Replaces the blob under a key. -/
  write : σ → ResourceKey → Blob → Except StoreError Unit × σ
  /-- Adds lines at the end of the blob under a key, which begins to exist if need be. -/
  appendLines : σ → ResourceKey → List String → Except StoreError Unit × σ
  /-- Removes the blob under a key; the answer tells whether there was one. -/
  delete : σ → ResourceKey → Except StoreError Bool × σ

namespace StateStore

/-- A blob as lines of text. -/
def blobLines (blob : Blob) : Except StoreError (List String) :=
  match Text.decode blob with
  | .ok text => .ok (Text.lines text)
  | .error fault =>
    .error { outermost := "resource is not valid UTF-8", causes := [fault.message] }

/-- The lines of the text under a key. -/
def readLines {σ : Type} [StateStore σ] (store : σ) (key : ResourceKey) :
    Except StoreError (Option (List String)) := do
  match ← read store key with
  | none => return none
  | some blob => return some (← blobLines blob)

end StateStore

end ScriptHost
