/-!
# Blobs

What is kept in storage: byte strings, which need not be text.
-/

namespace ScriptHost

/-- A byte string in storage. -/
abbrev Blob := ByteArray

end ScriptHost
