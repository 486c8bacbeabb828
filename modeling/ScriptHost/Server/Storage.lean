import ScriptHost.Server.Basic
/-!
# Global state and resources

The data that an app keeps.  Global state is held in memory by the app's root host.  The first
change after a quiet time is saved at once, and then a window opens in which changes stay in memory;
when the window runs out the state is saved as it is then.  Named resources go to the store
directly.

## Main definitions

* `ServerM.writeGlobalState`, `ServerM.tickHost`, `ServerM.flushPending`: global state.
* `ServerM.readTag`, `ServerM.writeTag`, `ServerM.appendLog`, `ServerM.readText`, `ServerM.remove`:
  resources.
-/

namespace ScriptHost.ServerM

variable {σ β : Type} [StateStore σ]

/-! ## The store -/

/-- Asks the store for a change. -/
def changeStore {α : Type} (request : StoreRequest) (key : ResourceKey)
    (run : σ → Except StoreError α × σ) : ServerM σ β (Except StoreError α) := do
  record (.stored request.change key)
  remember (.stored request key)
  let s ← get
  let (result, store) := run s.store
  set { s with store }
  return result

/-- Replaces the blob under a key. -/
def writeBlob (key : ResourceKey) (blob : Blob) : ServerM σ β (Except StoreError Unit) :=
  changeStore (.write blob) key (StateStore.write · key blob)

/-- Adds lines to the blob under a key. -/
def appendBlob (key : ResourceKey) (lines : List String) : ServerM σ β (Except StoreError Unit) :=
  changeStore (.append lines) key (StateStore.appendLines · key lines)

/-- Removes the blob under a key; the answer tells whether there was one. -/
def deleteBlob (key : ResourceKey) : ServerM σ β (Except StoreError Bool) :=
  changeStore .delete key (StateStore.delete · key)

/-- The blob under a key. -/
def readBlob (key : ResourceKey) : ServerM σ β (Except StoreError (Option Blob)) :=
  return StateStore.read (← get).store key

/-! ## Global state -/

/-- Saves the global state of a root host; the absence of a state is saved by removing the old one.
The host that belongs to no app has no place to save to. -/
def saveState (h : Host β) : ServerM σ β (Except StoreError Unit) :=
  match h.name?, h.globalState with
  | none, _ => return .ok ()
  | some name, some blob => writeBlob (.globalState name) blob
  | some name, none => return (← deleteBlob (.globalState name)).map fun _ => ()

/-- Saves the global state of a root host, and logs it if that fails. -/
def saveStateOrLog (h : Host β) : ServerM σ β Unit := do
  match ← saveState h with
  | .ok () => return ()
  | .error e => log .warn s!"Failed to save state of {h.mainKey}: {e.chainText}"

/-- The saved global state of a module, if it can be read. -/
def loadState (module : Module) : ServerM σ β (Option Blob) := do
  match ← readBlob (.globalState module.name) with
  | .ok state => return state
  | .error e =>
    log .warn s!"Failed to load state of {module.name}: {e.chainText}"
    return none

/-- Replaces the global state that a root host holds in memory; the answer is the host with the new
state.  That only roots hold global state is not enforced, but a host that is no root is remembered
as misplaced. -/
def holdState (h : Host β) (blob : Option Blob) : ServerM σ β (Host β) := do
  if !h.isRoot then remember (.misplaced h.id h.name?)
  insertHost (h.hold blob)
  remember (.replaced h.id blob h.saveTimeout)
  return h.hold blob

/-- Saves the global state of a root host, and opens its window if that succeeds. -/
def saveAndOpen (h : Host β) : ServerM σ β (Except StoreError Unit) := do
  match ← saveState h with
  | .ok () =>
    insertHost (h.setTimeout (← get).settings.saveDebounceTicks)
    return .ok ()
  | .error e => return .error e

/-- Replaces the global state of a root host.  It is saved at once unless a window is open; when
that succeeds a window opens. -/
def storeState (h : Host β) (blob : Option Blob) : ServerM σ β (Except StoreError Unit) := do
  let h ← holdState h blob
  if 0 < h.saveTimeout then return .ok () else saveAndOpen h

/-- The failure of an operation on a host that does not exist. -/
def unknownHost (id : HostId) : StoreError :=
  { outermost := (ContractError.unknownHost id).message }

/-- Replaces the global state of the app that a host belongs to.  The answer is false for the host
that belongs to no app, which has none. -/
def writeGlobalState (id : HostId) (blob : Option Blob) :
    ServerM σ β (Except StoreError Bool) := do
  match ← host? ((← get).rootOf id) with
  | none => return .error (unknownHost id)
  | some root =>
    if root.name?.isNone then return .ok false
    match ← storeState root blob with
    | .error e => return .error e
    | .ok () =>
      remember (.accepted root.id blob root.saveTimeout)
      return .ok true

/-- Moves the window of a host on by a tick, and saves the state when it runs out. -/
def tickHost (id : HostId) : ServerM σ β Unit := do
  if let some h ← host? id then
    remember (.ticked id)
    if 0 < h.saveTimeout then
      let h := h.setTimeout (h.saveTimeout - 1)
      insertHost h
      if h.saveTimeout = 0 then saveStateOrLog h

/-- Closes the window of a host, and saves the state if one was open. -/
def flushPending (id : HostId) : ServerM σ β Unit := do
  if let some h ← host? id then
    remember (.closed id)
    if 0 < h.saveTimeout then
      let h := h.setTimeout 0
      insertHost h
      saveStateOrLog h

/-! ## Resources -/

/-- Goes on with a host that may use resources of the given scope; otherwise the answer is `denied`.
Only the shared resources are open to the host that belongs to no app. -/
def withScope {α : Type} (id : HostId) (shared : Bool) (denied : α)
    (use : Host β → ServerM σ β (Except StoreError α)) : ServerM σ β (Except StoreError α) := do
  match ← host? id with
  | none => return .error (unknownHost id)
  | some h => if h.name?.isNone ∧ !shared then return .ok denied else use h

/-- The blob of a file, or the app's global state when no file is named. -/
def readTag (id : HostId) (file : Option String) (shared : Bool) :
    ServerM σ β (Except StoreError (Option Blob)) :=
  withScope id shared none fun h => do
    match file with
    | some file => readBlob (.resource h.name? file .tag shared)
    | none =>
      let root := (← get).rootOf id
      let state := (← host? root).bind (·.globalState)
      remember (.answered root state)
      return .ok state

/-- Replaces the blob of a file, or the app's global state when no file is named.  The answer is
false when the host may not do so. -/
def writeTag (id : HostId) (blob : Blob) (file : Option String) (shared : Bool) :
    ServerM σ β (Except StoreError Bool) :=
  withScope id shared false fun h => do
    match file with
    | some file =>
      return (← writeBlob (.resource h.name? file .tag shared) blob).map fun _ => true
    | none => writeGlobalState id (some blob)

/-- Adds lines to a file.  The answer is false when the host may not do so. -/
def appendLog (id : HostId) (file : String) (shared : Bool) (typeName : String)
    (lines : List String) : ServerM σ β (Except StoreError Bool) :=
  withScope id shared false fun h => do
    let key := ResourceKey.resource h.name? file (.ofTypeName typeName) shared
    return (← appendBlob key lines).map fun _ => true

/-- The lines of a file. -/
def readText (id : HostId) (file : String) (shared : Bool) :
    ServerM σ β (Except StoreError (Option (List String))) :=
  withScope id shared none fun h =>
    return StateStore.readLines (← get).store (.resource h.name? file .text shared)

/-- Removes a file; the answer tells whether there was one. -/
def remove (id : HostId) (file : String) (shared : Bool) (typeName : String) :
    ServerM σ β (Except StoreError Bool) :=
  withScope id shared false fun h =>
    deleteBlob (.resource h.name? file (.ofTypeName typeName) shared)

end ScriptHost.ServerM
