import Firewall.Action

namespace Firewall

/-- What a host allows of network namespaces at the time. -/
structure Namespaces where
  /-- The named namespaces that can be opened. -/
  present : List String
  /-- Whether the current namespace can be opened. -/
  opensCurrent : Bool
  /-- Whether a namespace that is open can be entered. -/
  admits : Bool
  /-- Whether it can be left again. -/
  releases : Bool
  deriving DecidableEq, Repr

/-- A host that allows everything. -/
def Namespaces.named (present : List String) : Namespaces := ⟨present, true, true, true⟩

namespace Namespace

def directory : String := "/var/run/netns"

/-- Whether a name can be that of a namespace: a file name of at most 255 bytes without control
characters. -/
def isName (name : String) : Bool :=
  (Bytes.ofString name).length ≤ 255 && name != "." && name != ".." &&
    !name.toList.contains '/' && !name.toList.any Text.isControl

/-- Checks a name; the empty one is allowed. -/
def checkName (name : String) : Except Error Unit :=
  if name = "" ∨ isName name then .ok () else .error (.namespaceName name)

def path (name : String) : String := directory ++ "/" ++ name

/-- Switches to a named namespace. The current one is opened first, for the way back. -/
def enter (host : Namespaces) (name : String) : Except Error Unit :=
  match checkName name with
  | .error e => .error e
  | .ok () =>
    if !host.opensCurrent then .error .namespaceUnopened
    else if !host.present.contains name then .error (.namespaceAbsent name)
    else if !host.admits then .error (.namespaceClosed name)
    else .ok ()

/-- Switches back to the namespace that was current before. -/
def leave (host : Namespaces) : Except Error Unit :=
  if host.releases then .ok () else .error .namespaceHeld

/-- Runs an action in a namespace and leaves it again, whatever becomes of the action. That it cannot be
left is told only if the action itself has not failed. -/
def run (host : Namespaces) (name : String) (a : Action σ α) : Action σ α :=
  if name = "" then a
  else do
    .ofExcept (enter host name)
    let value ← a
    .ofExcept (leave host)
    return value

end Namespace
end Firewall
