/-!
# Host numbers

Hosts are known by number.  The host that belongs to no app has number zero.
-/

namespace ScriptHost

/-- The number of a host. -/
abbrev HostId := Nat

/-- The number of the host that belongs to no app. -/
def HostId.unnamed : HostId := 0

/-- How reports write the number of a host. -/
def HostId.text (id : HostId) : String := s!"HostId({id})"

end ScriptHost
