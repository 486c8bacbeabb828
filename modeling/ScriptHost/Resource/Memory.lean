import ScriptHost.Resource.Store
/-!
# Storage in memory

A store that lives as long as the server does.  It never fails.
-/

namespace ScriptHost

/-- Blobs under their keys, with the number of writes so far. -/
structure MemoryStore where
  blobs : Std.ExtTreeMap ResourceKey Blob ResourceKey.cmp
  writes : Nat := 0

namespace MemoryStore

/-- A store without a blob. -/
def empty : MemoryStore := { blobs := ∅ }

instance : EmptyCollection MemoryStore := ⟨empty⟩

instance : Inhabited MemoryStore := ⟨empty⟩

/-- The blob under a key. -/
def get? (s : MemoryStore) (key : ResourceKey) : Option Blob := s.blobs[key]?

/-- Replaces the blob under a key. -/
def insert (s : MemoryStore) (key : ResourceKey) (blob : Blob) : MemoryStore :=
  { blobs := s.blobs.insert key blob, writes := s.writes + 1 }

/-- Adds lines at the end of the blob under a key. -/
def append (s : MemoryStore) (key : ResourceKey) (lines : List String) : MemoryStore :=
  { s with
    blobs := s.blobs.insert key ((s.get? key).getD ByteArray.empty ++ (Text.unlines lines).toUTF8) }

/-- Removes the blob under a key. -/
def erase (s : MemoryStore) (key : ResourceKey) : MemoryStore :=
  { s with blobs := s.blobs.erase key }

/-- Every key with its blob, in the order of the keys. -/
def toList (s : MemoryStore) : List (ResourceKey × Blob) := s.blobs.toList

instance : StateStore MemoryStore where
  read s key := .ok (s.get? key)
  write s key blob := (.ok (), s.insert key blob)
  appendLines s key lines := (.ok (), s.append key lines)
  delete s key := (.ok (s.get? key).isSome, s.erase key)

variable {s : MemoryStore} {k l : ResourceKey} {b : Blob} {lines : List String}

theorem get?_insert : (s.insert k b).get? l = if k = l then some b else s.get? l := by
  simp [get?, insert, Std.ExtTreeMap.getElem?_insert]

theorem get?_erase : (s.erase k).get? l = if k = l then none else s.get? l := by
  simp [get?, erase, Std.ExtTreeMap.getElem?_erase]

theorem get?_append :
    (s.append k lines).get? l =
      if k = l then some ((s.get? k).getD ByteArray.empty ++ (Text.unlines lines).toUTF8)
      else s.get? l := by
  simp [get?, append, Std.ExtTreeMap.getElem?_insert]

end MemoryStore

end ScriptHost
