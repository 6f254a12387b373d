import Firewall.Chain
import Firewall.Input
import Firewall.Namespace

namespace Firewall

structure Services where
  /-- Asks name servers. -/
  dns : Bool
  /-- Is a web server. -/
  http : Bool
  /-- Hands in mail. -/
  smtp : Bool
  deriving DecidableEq, Repr

def Services.default : Services := ⟨true, false, false⟩

/-- What the policy is compiled from. -/
structure Config where
  /-- Whether anything is done at all. -/
  enabled : Bool
  /-- The namespace to manage; the current one if empty. -/
  networkNamespace : String
  defaultPolicy : Policy
  /-- Put in front of the names of the tables. -/
  tablePrefix : String
  family : Family
  /-- The overlay interface; none if empty. -/
  overlayInterface : String
  /-- The UDP port of the overlay, which every interface accepts; none if zero. -/
  overlayPort : UInt16
  /-- Interfaces that are treated like the outside one. -/
  interfaces : List String
  /-- Ports that trusted sources may reach. -/
  trustedPorts : List String
  /-- Ports that managers may reach over the overlay. -/
  managerPorts : List String
  services : Services
  deriving DecidableEq, Repr

namespace Config

def default : Config := ⟨true, "", .drop, "", .ipv4, "", 0, [], ["22"], [], .default⟩

def filterTable (c : Config) : Table := ⟨c.family, c.tablePrefix ++ "filter"⟩

def natTable (c : Config) : Table := ⟨c.family, c.tablePrefix ++ "nat"⟩

def hasOverlay (c : Config) : Bool := c.overlayInterface != ""

def checkField (field : String) (check : Except InputFault α) : Except Error Unit :=
  match check with
  | .ok _ => .ok ()
  | .error fault => .error (.input field fault)

/-- Checks all values of a field; the first fault counts. -/
def checkEach (field : String) (check : String → Except InputFault α) :
    List String → Except Error Unit
  | [] => .ok ()
  | s :: ss =>
    match checkField field (check s) with
    | .ok () => checkEach field check ss
    | .error e => .error e

def namedInterface (name : String) : Except InputFault String :=
  if name = "" then .error .interfaceEmpty else Input.interface name

def validate (c : Config) : Except Error Unit := do
  Namespace.checkName c.networkNamespace
  checkField "table_prefix" (Input.tablePrefix c.tablePrefix)
  checkField "overlay_iface" (Input.interface c.overlayInterface)
  checkEach "ifaces" namedInterface c.interfaces
  checkEach "trusted_ports" Input.portSpec c.trustedPorts
  checkEach "manager_ports" Input.portSpec c.managerPorts

end Config
end Firewall
