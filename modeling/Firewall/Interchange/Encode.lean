import Firewall.Json.Basic
import Firewall.Kernel
import Firewall.Sha256

namespace Firewall

def Table.toJson (t : Table) : Json :=
  .object [("family", .string t.family.name), ("name", .string t.name)]

def Duration.toJson (d : Duration) : Json :=
  .object [("secs", .nat d.seconds), ("nanos", .nat d.nanoseconds)]

def SetFlags.toJson (f : SetFlags) : Json :=
  .object [("anonymous", .bool f.anonymous), ("constant", .bool f.constant),
    ("dynamic", .bool f.dynamic), ("timeout", .bool f.timeout), ("interval", .bool f.interval)]

def MatchSet.toJson (s : MatchSet) : Json :=
  .object [("table", .string s.table.name), ("family", .string s.table.family.name),
    ("name", .string s.name), ("id", .nat s.id), ("key_type", .string s.keyType.name),
    ("flags", s.flags.toJson), ("timeout", .option Duration.toJson s.timeout)]

def Element.toJson (e : Element) : Json :=
  .object [("key", .bytes e.key), ("key_end", .option Json.bytes e.keyEnd),
    ("timeout", .option Duration.toJson e.timeout)]

def Element.listToJson (es : List Element) : Json := .array (es.map Element.toJson)

def SetRef.toJson (s : SetRef) : Json := .object [("name", .string s.name), ("id", .nat s.id)]

def BaseChain.toJson (b : BaseChain) : Json :=
  .object [("hook", .string b.hook.name), ("chain_type", .string b.chainType.name),
    ("priority", .number (.int b.priority)), ("policy", .string b.policy.name)]

def Chain.toJson (c : Chain) : Json :=
  .object [("table", c.table.toJson), ("name", .string c.name),
    ("base", .option BaseChain.toJson c.base)]

/-- An object with one member, the form of an alternative with content. -/
def Json.tagged (name : String) (content : Json) : Json := .object [(name, content)]

def MetaKey.name : MetaKey → String
  | .inputInterface => "iifname"
  | .outputInterface => "oifname"
  | .protocol => "l4proto"
  | .netfilterFamily => "nfproto"

def Header.name : Header → String
  | .network => "network"
  | .transport => "transport"

def Field.toJson : Field → Json
  | .metaKey key => .tagged "Meta" (.string key.name)
  | .payload header offset length =>
    .tagged "Payload" (.object [("base", .string header.name), ("offset", .nat offset.toNat),
      ("len", .nat length.toNat)])
  | .ctState => .string "CtState"

def Comparison.name : Comparison → String
  | .eq => "Eq"
  | .ne => "Neq"
  | .lt => "Lt"
  | .le => "Lte"
  | .gt => "Gt"
  | .ge => "Gte"

def RejectKind.tag : RejectKind → String
  | .icmp => "IcmpUnreachable"
  | .icmpx => "IcmpxUnreachable"
  | .tcpReset => "TcpReset"

def Verdict.toJson : Verdict → Json
  | .accept => .string "Accept"
  | .drop => .string "Drop"
  | .reject kind code =>
    .tagged "Reject" (.object [("kind", .string kind.tag), ("code", .nat code.toNat)])
  | .jump chain => .tagged "Jump" (.string chain)
  | .goto chain => .tagged "Goto" (.string chain)
  | .ret => .string "Return"
  | .cont => .string "Continue"

def RateUnit.tag : RateUnit → String
  | .packets => "Packets"
  | .bytes => "Bytes"

def Period.tag : Period → String
  | .second => "Second"
  | .minute => "Minute"
  | .hour => "Hour"
  | .day => "Day"
  | .week => "Week"

def RateLimit.toJson (l : RateLimit) : Json :=
  .object [("rate", .nat l.rate.toNat), ("unit", .string l.unit.tag), ("per", .string l.per.tag),
    ("burst", .nat l.burst.toNat), ("over", .bool l.beyond)]

def NatKind.tag : NatKind → String
  | .source => "Snat"
  | .destination => "Dnat"

def Register.toJson (r : Register) : Json := .nat r.index

def Op.toJson : Op → Json
  | .load field reg => .tagged "Load" (.object [("field", field.toJson), ("reg", reg.toJson)])
  | .bitwise source target length mask xor =>
    .tagged "Bitwise" (.object [("src", source.toJson), ("dst", target.toJson),
      ("len", .nat length.toNat), ("mask", .bytes mask), ("xor", .bytes xor)])
  | .compare c reg data =>
    .tagged "Cmp" (.object [("op", .string c.name), ("reg", reg.toJson), ("data", .bytes data)])
  | .lookup reg set invert =>
    .tagged "Lookup" (.object [("reg", reg.toJson), ("set", set.toJson), ("invert", .bool invert)])
  | .immediate reg data =>
    .tagged "Immediate" (.object [("reg", reg.toJson), ("data", .bytes data)])
  | .limit l => .tagged "Limit" l.toJson
  | .counter => .string "Counter"
  | .nat kind family address port =>
    .tagged "Nat" (.object [("kind", .string kind.tag), ("family", .string family.name),
      ("addr_reg", .option Register.toJson address), ("port_reg", .option Register.toJson port)])
  | .verdict v => .tagged "Verdict" v.toJson

def Program.toJson (p : Program) : Json := .array (p.map Op.toJson)

def RuleData.toJson (r : RuleData) : Json :=
  .object [("id", .option .string r.id), ("exprs", r.program.toJson),
    ("handle", .option .nat r.handle), ("position", .option .nat r.position)]

def Rule.toJson (r : Rule) : Json :=
  .object [("table", r.table.toJson), ("chain", .string r.chain), ("data", r.data.toJson)]

def MatchSet.withElementsToJson (s : MatchSet) (es : List Element) : Json :=
  .object [("set", s.toJson), ("elements", Element.listToJson es)]

def Declaration.toJson : Declaration → Json
  | .flushRuleset => .string "FlushRuleset"
  | .addTable t => .tagged "AddTable" t.toJson
  | .addChain c => .tagged "AddChain" c.toJson
  | .addSet s es => .tagged "AddSet" (s.withElementsToJson es)
  | .addElements s es => .tagged "SetAddElements" (s.withElementsToJson es)
  | .deleteElements s es => .tagged "SetDeleteElements" (s.withElementsToJson es)
  | .addRule r => .tagged "AddRule" r.toJson
  | .insertRule r before =>
    .tagged "InsertRule" (.object [("rule", r.toJson), ("before", .option .nat before)])
  | .deleteRule t chain handle =>
    .tagged "DeleteRule" (.object [("table", t.toJson), ("chain", .string chain),
      ("handle", .nat handle)])

def Batch.toJson (b : Batch) : Json := .array (b.map Declaration.toJson)

/-- The digest of a batch's interchange form. -/
def Batch.fingerprint (b : Batch) : String := Sha256.hexDigest (Batch.toJson b).text

/-- A chain with its rules, whose handles do not count. -/
def InstalledChain.toJson (c : InstalledChain) : Json :=
  .object [("chain", c.chain.toJson),
    ("rules", .array (c.rules.map fun r => RuleData.toJson { r with handle := none }))]

/-- A set with its elements; its id does not count. -/
def InstalledSet.toJson (s : InstalledSet) : Json :=
  MatchSet.withElementsToJson { s.set with id := 0 } s.elements

def InstalledTable.toJson (t : InstalledTable) : Json :=
  .array [t.table.toJson,
    .object [("chains", .array (t.chains.map InstalledChain.toJson)),
      ("sets", .object (t.sets.map fun s => (s.set.name, s.toJson)))]]

/-- The digest of what is installed, but for handles and ids. -/
def Kernel.fingerprint (k : Kernel) : String :=
  Sha256.hexDigest (Json.array (k.ruleset.tables.map InstalledTable.toJson)).text

end Firewall
