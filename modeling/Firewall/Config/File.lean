import Firewall.Config.Basic
import Firewall.Json.Decode

namespace Firewall

/-- The members of a configuration file in the order in which they are written. -/
def Config.fieldNames : List String :=
  ["enabled", "network_namespace", "default_policy", "table_prefix", "family", "overlay_iface",
   "overlay_port", "ifaces", "trusted_ports", "manager_ports", "services"]

def Services.toJson (s : Services) : Json :=
  .object [("dns", .bool s.dns), ("http", .bool s.http), ("smtp", .bool s.smtp)]

def Services.ofTree? (t : Json.Tree) : Option Services := do
  let f ← t.fields? ["dns", "http", "smtp"] true
  let d := Services.default
  return ⟨← f.getD? "dns" Json.Tree.bool? d.dns, ← f.getD? "http" Json.Tree.bool? d.http,
    ← f.getD? "smtp" Json.Tree.bool? d.smtp⟩

def Family.ofTree? : Json.Tree → Option Family :=
  Json.Tree.choice? [("ipv4", .ipv4), ("ipv6", .ipv6)]

def Policy.ofTree? : Json.Tree → Option Policy :=
  Json.Tree.choice? [("accept", .accept), ("drop", .drop)]

namespace Config

def toJson (c : Config) : Json :=
  .object [
    ("enabled", .bool c.enabled),
    ("network_namespace", .string c.networkNamespace),
    ("default_policy", .string c.defaultPolicy.name),
    ("table_prefix", .string c.tablePrefix),
    ("family", .string c.family.name),
    ("overlay_iface", .string c.overlayInterface),
    ("overlay_port", .nat c.overlayPort.toNat),
    ("ifaces", .strings c.interfaces),
    ("trusted_ports", .strings c.trustedPorts),
    ("manager_ports", .strings c.managerPorts),
    ("services", c.services.toJson)]

/-- The configuration that a tree describes; what is left out is as by default. -/
def ofTree? (t : Json.Tree) : Option Config := do
  let f ← t.fields? fieldNames true
  let d := Config.default
  return {
    enabled := ← f.getD? "enabled" Json.Tree.bool? d.enabled
    networkNamespace := ← f.getD? "network_namespace" Json.Tree.string? d.networkNamespace
    defaultPolicy := ← f.getD? "default_policy" Policy.ofTree? d.defaultPolicy
    tablePrefix := ← f.getD? "table_prefix" Json.Tree.string? d.tablePrefix
    family := ← f.getD? "family" Family.ofTree? d.family
    overlayInterface := ← f.getD? "overlay_iface" Json.Tree.string? d.overlayInterface
    overlayPort := ← f.getD? "overlay_port" (fun t => (t.nat? 16).map UInt16.ofNat) d.overlayPort
    interfaces := ← f.getD? "ifaces" (Json.Tree.list? Json.Tree.string?) d.interfaces
    trustedPorts := ← f.getD? "trusted_ports" (Json.Tree.list? Json.Tree.string?) d.trustedPorts
    managerPorts := ← f.getD? "manager_ports" (Json.Tree.list? Json.Tree.string?) d.managerPorts
    services := ← f.getD? "services" Services.ofTree? d.services }

/-- The configuration of a file's text, if it is in order. -/
def load (text : String) : Except Error Config :=
  match (Json.Tree.parse? text.toList).bind ofTree? with
  | none => .error .serialization
  | some c =>
    match c.validate with
    | .ok () => .ok c
    | .error e => .error e

def save (c : Config) : String := c.toJson.prettyText

/-- The default configuration for a new file, and the text of that file. A file that is there is only
replaced if `force`. -/
def init (path : String) (existing : Option String) (force : Bool) :
    Except Error (Config × String) :=
  if existing.isSome ∧ !force then .error (.configExists path) else .ok (.default, save .default)

end Config
end Firewall
