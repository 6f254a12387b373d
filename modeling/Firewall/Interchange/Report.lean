import Firewall.Config.File
import Firewall.Controller
import Firewall.Hint
import Firewall.Interchange.Encode
import Firewall.Nft.Session

namespace Firewall

def Family.factsToJson (f : Family) : Json :=
  let p := f.profile
  .object [
    ("name", .string f.name), ("nft_name", .string f.nftName),
    ("addr_key_type", .string f.keyType.name),
    ("loopback_net", .string f.loopbackNetwork.text),
    ("src_offset", .nat p.sourceOffset.toNat), ("dst_offset", .nat p.destinationOffset.toNat),
    ("addr_len", .nat p.addressLength.toNat), ("zero_xor", .bytes p.zeroXor),
    ("l4proto_offset", .nat p.protocolOffset.toNat), ("icmp_proto", .nat p.icmpProtocol.toNat),
    ("echo_request_type", .nat p.echoRequestType.toNat), ("nfproto", .nat p.netfilterNumber.toNat)]

def KeyType.factsToJson (k : KeyType) : Json :=
  .object [("name", .string k.name), ("len", .nat k.length),
    ("family", .option (fun f => .string f.name) k.family?)]

/-- An address with what it stands for, and the families it belongs to. -/
def Address.factsToJson (a : Address) : Json :=
  .object [
    ("text", .string a.text), ("family", .string a.family.name), ("bytes", .bytes a.bytes),
    ("unmapped", .string a.unmapped.text), ("unmapped_bytes", .bytes a.unmapped.bytes),
    ("in_ipv4", .bool (Family.ipv4.contains a)), ("in_ipv6", .bool (Family.ipv6.contains a))]

/-- A network with its base and mask, and the note that goes with it as a trusted source. -/
def Network.factsToJson (n : Network) : Json :=
  .object [
    ("text", .string n.text), ("ip", .string n.address.text), ("prefix", .nat n.length),
    ("network", .string n.base.text), ("mask", .string n.mask.text),
    ("reserved", .option .string (Input.sourceNote? n))]

def CtState.toJson (s : CtState) : Json :=
  .object [("bits", .nat s.bits.toNat), ("names", .strings s.names), ("text", .string s.text),
    ("bytes", .bytes s.bytes)]

def portBoundsToJson (bounds : UInt16 × UInt16) : Json :=
  .array [.nat bounds.1.toNat, .nat bounds.2.toNat]

def Element.factsFor (k : KeyType) (e : Element) : List (String × Json) :=
  [("element", e.toJson), ("spec", .string (e.spec k)),
    ("ports", .option portBoundsToJson e.portBounds?)]

/-- A rate limit with its text and the words in it. -/
def RateLimit.factsToJson (l : RateLimit) : Json :=
  .object [("limit", l.toJson), ("text", .string l.text), ("unit", .string l.unit.name),
    ("per", .string l.per.name)]

def Outcome.toJson : Outcome → Json
  | .noMatch => .string "no_match"
  | .nat => .string "nat"
  | .verdict v => .object [("verdict", v.toJson), ("text", .string v.text)]

def Decision.toJson (d : Decision) : Json :=
  .object [("verdict", d.verdict.toJson), ("text", .string d.verdict.text),
    ("handle", .option .nat d.handle), ("id", .option .string d.id), ("accepted", .bool d.accepted)]

def RuleData.briefToJson (r : RuleData) : Json :=
  .array [.option .string r.id, .option .nat r.handle, .option .nat r.position]

/-- An element's text with the seconds of its timeout. -/
def Element.briefToJson (k : KeyType) (e : Element) : Json :=
  .array [.string (e.spec k), .option (fun d => .nat d.seconds) e.timeout]

def Config.factsToJson (c : Config) : Json :=
  .object [("config", c.toJson), ("filter_table", .string c.filterTable.name),
    ("nat_table", .string c.natTable.name), ("has_overlay", .bool c.hasOverlay)]

def Layout.namedSets (l : Layout) : List (String × MatchSet) :=
  [("trusted", l.trusted), ("manager", l.manager), ("forward_ips", l.forwarded),
   ("blacklist", l.blacklist), ("trusted_ports", l.trustedPorts),
   ("manager_ports", l.managerPorts), ("http_ports", l.httpPorts), ("smtp_ports", l.smtpPorts)]

def Layout.namedChains (l : Layout) : List (String × Chain) :=
  [("input", l.input), ("forward", l.forward), ("output", l.output),
   ("postrouting", l.postrouting)]

def Layout.toJson (l : Layout) : Json :=
  .object (("filter", l.filter.toJson) :: ("nat", l.nat.toJson) ::
    (l.namedChains.map fun c => (c.1, c.2.toJson)) ++ l.namedSets.map fun s => (s.1, s.2.toJson))

def PlannedRule.toJson (r : PlannedRule) : Json :=
  .object [("chain", .string (r.chain.table.name ++ "/" ++ r.chain.name)),
    ("id", .option .string r.data.id), ("ops", r.data.program.toJson)]

/-- A planned rule with its chain and the number of its operations. -/
def PlannedRule.briefToJson (r : PlannedRule) : Json :=
  .array [.string (r.chain.table.name ++ "/" ++ r.chain.name), .option .string r.data.id,
    .nat r.data.program.length]

def Controller.factsToJson (c : Controller σ) : Json :=
  let l := c.layout
  .object [
    ("applied", .bool c.applied), ("wan_iface", .string c.outsideInterface),
    ("wan_addr", .string c.outsideAddress.text), ("filter", l.filter.toJson),
    ("nat", l.nat.toJson), ("enabled", .bool c.config.enabled),
    ("chains", .strings (l.namedChains.map fun c => c.2.name)),
    ("sets", .array ([l.trusted, l.manager, l.forwarded, l.blacklist, l.httpPorts,
      l.smtpPorts].map fun s => s.ref.toJson))]

def Hint.toJson (h : Hint) : Json :=
  .object [("message", .string h.message), ("suggestions", .strings h.suggestions)]

namespace Nft

/-- A run of the nft command, with the document on its input. -/
def Invocation.toJson (i : Invocation) : Json :=
  .object [("args", .string (" ".intercalate i.args)),
    ("stdin", .option id (i.stdin.bind Json.ofText?))]

def documentToJson (batch : Batch) : Except Error Json :=
  (document batch).map fun d => .object [("document", d), ("checksum", .string (checksum d))]

end Nft
end Firewall
