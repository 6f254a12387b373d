import Firewall.Input
import Firewall.Json.Basic
import Firewall.MatchSet.Spec
import Firewall.Rule
import Firewall.Sha256
import Firewall.Utf8

namespace Firewall.Nft

/-- What a loaded field means in a table of a family. -/
inductive Meaning where
  | metaKey (key : MetaKey)
  | ctState
  | address (dir : Direction)
  | protocol
  | port (dir : Direction)
  | icmpType
  | raw (header : Header) (offset length : UInt32)
  deriving DecidableEq, Repr

def Meaning.of (p : Profile) : Field → Meaning
  | .metaKey key => .metaKey key
  | .ctState => .ctState
  | .payload .network offset length =>
    if length = p.addressLength ∧ offset = p.sourceOffset then .address .source
    else if length = p.addressLength ∧ offset = p.destinationOffset then .address .destination
    else if length = protocolLength ∧ offset = p.protocolOffset then .protocol
    else .raw .network offset length
  | .payload .transport offset length =>
    if length = portLength ∧ offset = portOffset .source then .port .source
    else if length = portLength ∧ offset = portOffset .destination then .port .destination
    else if length = icmpTypeLength ∧ offset = icmpTypeOffset then .icmpType
    else .raw .transport offset length

/-- The number that bytes spell; more than eight bytes are written in hexadecimal. -/
def bigEndian (bs : List UInt8) : Json :=
  if bs.length ≤ 8 then .nat (Bytes.toNat bs)
  else .string (String.ofList ('0' :: 'x' :: Text.hexBytes bs))

/-- An interface name without the zeros at its end. -/
def interfaceName (bs : List UInt8) : String :=
  String.ofList (Text.dropWhileEnd (·.toNat = 0) (Utf8.decode bs))

/-- The names of connection states, or their number if it is no set of states. -/
def ctNames (bs : List UInt8) : Json :=
  match CtState.ofBytes? bs with
  | some s => .strings s.names
  | none => .nat (if bs.length = 4 then Bytes.toNatHost bs else 0)

def single (name : String) (value : Json) : Json := .object [(name, value)]

def payloadField (protocol field : String) : Json :=
  single "payload" (.object [("protocol", .string protocol), ("field", .string field)])

/-- The expression for a loaded field. The offset and length of a field without a meaning of its own
are written in bits, as numbers of 32 bits. -/
def Meaning.expr (p : Profile) : Meaning → Json
  | .metaKey key =>
    let name := match key with
      | .inputInterface => "iifname"
      | .outputInterface => "oifname"
      | .protocol => "l4proto"
      | .netfilterFamily => "nfproto"
    single "meta" (single "key" (.string name))
  | .ctState => single "ct" (single "key" (.string "state"))
  | .address .source => payloadField p.family.nftName "saddr"
  | .address .destination => payloadField p.family.nftName "daddr"
  | .protocol =>
    payloadField p.family.nftName (match p.family with
      | .ipv4 => "protocol"
      | .ipv6 => "nexthdr")
  | .port .source => payloadField "th" "sport"
  | .port .destination => payloadField "th" "dport"
  | .icmpType =>
    payloadField (match p.family with
      | .ipv4 => "icmp"
      | .ipv6 => "icmpv6") "type"
  | .raw header offset length =>
    let base := match header with
      | .network => "nh"
      | .transport => "th"
    single "payload" (.object [("base", .string base), ("offset", .nat (offset * 8).toNat),
      ("len", .nat (length * 8).toNat)])

/-- The text of an address, or the number for bytes that are none. -/
def addressValue (bs : List UInt8) : Json :=
  match Address.ofBytes? bs with
  | some a => .string a.text
  | none => bigEndian bs

def Meaning.value (m : Meaning) (data : List UInt8) : Json :=
  match m with
  | .metaKey .inputInterface => .string (interfaceName data)
  | .metaKey .outputInterface => .string (interfaceName data)
  | .metaKey .netfilterFamily =>
    match data with
    | 2 :: _ => .string "ipv4"
    | 10 :: _ => .string "ipv6"
    | _ => bigEndian data
  | .ctState => ctNames data
  | .address _ => addressValue data
  | .metaKey .protocol => bigEndian data
  | .protocol => bigEndian data
  | .port _ => bigEndian data
  | .icmpType => bigEndian data
  | .raw _ _ _ => bigEndian data

/-- A key of a set from its text; ports are numbers. -/
def keyValue (k : KeyType) (spec : List Char) : Json :=
  match k, Text.number? 65535 spec with
  | .inetService, some n => .nat n
  | _, _ => .string (String.ofList spec)

/-- A network from the text of its address and length. -/
def networkValue (address length : List Char) : Json :=
  single "prefix" (.object [("addr", .string (String.ofList address)),
    ("len", .nat ((Text.number? 0xFFFFFFFF length).getD 0))])

/-- The keys of an element, from its text. -/
def elementKeys (k : KeyType) (e : Element) : Json :=
  let spec := e.specChars k
  match Text.splitOnce '/' spec with
  | some (address, length) => networkValue address length
  | none =>
    match e.keyEnd, Text.splitOnce '-' spec with
    | some _, some (low, high) => single "range" (.array [keyValue k low, keyValue k high])
    | _, _ => keyValue k spec

/-- An element, with the seconds of its timeout if it has one. -/
def elementValue (k : KeyType) (e : Element) : Json :=
  match e.timeout with
  | some d =>
    single "elem" (.object [("val", elementKeys k e), ("timeout", .nat d.seconds)])
  | none => elementKeys k e

def elementValues (k : KeyType) (es : List Element) : Json := .array (es.map (elementValue k))

/-- The name of an ICMP code that stands for both families. -/
def icmpxName? (code : UInt8) : Option String :=
  match code.toNat with
  | 0 => some "no-route"
  | 1 => some "port-unreachable"
  | 2 => some "host-unreachable"
  | 3 => some "admin-prohibited"
  | _ => none

def icmpName? (code : UInt8) : Option String :=
  match code.toNat with
  | 0 => some "net-unreachable"
  | 1 => some "host-unreachable"
  | 2 => some "prot-unreachable"
  | 3 => some "port-unreachable"
  | 9 => some "net-prohibited"
  | 10 => some "host-prohibited"
  | 13 => some "admin-prohibited"
  | _ => none

def icmpv6Name? (code : UInt8) : Option String :=
  match code.toNat with
  | 0 => some "no-route"
  | 1 => some "admin-prohibited"
  | 3 => some "addr-unreachable"
  | 4 => some "port-unreachable"
  | 5 => some "policy-fail"
  | 6 => some "reject-route"
  | _ => none

/-- A rejection with the name of its code, or the code if it has no name. -/
def rejectBody (kind : String) (name : Option String) (code : UInt8) : Json :=
  let expr : Json := match name with
    | some n => .string n
    | none => .nat code.toNat
  single "reject" (.object [("type", .string kind), ("expr", expr)])

def rejectStatement (family : Family) (kind : RejectKind) (code : UInt8) : Json :=
  match kind, family with
  | .tcpReset, _ => single "reject" (single "type" (.string "tcp reset"))
  | .icmpx, _ => rejectBody "icmpx" (icmpxName? code) code
  | .icmp, .ipv4 => rejectBody "icmp" (icmpName? code) code
  | .icmp, .ipv6 => rejectBody "icmpv6" (icmpv6Name? code) code

def verdictStatement (family : Family) : Verdict → Json
  | .accept => single "accept" .null
  | .drop => single "drop" .null
  | .reject kind code => rejectStatement family kind code
  | .jump target => single "jump" (single "target" (.string target))
  | .goto target => single "goto" (single "target" (.string target))
  | .ret => single "return" .null
  | .cont => single "continue" .null

/-- What a register stands for: a field, with the mask applied to it, or bytes from the program. -/
inductive Slot where
  | field (meaning : Meaning) (mask : Option (List UInt8))
  | immediate (data : List UInt8)
  deriving DecidableEq, Repr

/-- What each register stands for; nothing before the first write and after a read. -/
abbrev Slots := Register → Option Slot

namespace Slots

def set (s : Slots) (reg : Register) (slot : Option Slot) : Slots :=
  fun r => if r = reg then slot else s r

end Slots

structure AnonymousSet where
  table : Table
  name : String
  keyType : KeyType
  elements : List Element
  deriving DecidableEq, Repr

/-- The anonymous set of that name in a table; of several the last. -/
def findAnonymous? (sets : List AnonymousSet) (table : Table) (name : String) :
    Option AnonymousSet :=
  sets.reverse.find? fun s => s.table = table ∧ s.name = name

def maskOnes (mask : List UInt8) : Nat := mask.foldr (fun b n => countOnes b.toNat + n) 0

def matchStatement (op : String) (left right : Json) : Json :=
  single "match" (.object [("op", .string op), ("left", left), ("right", right)])

def compareStatement (p : Profile) (c : Comparison) (m : Meaning) (mask : Option (List UInt8))
    (data : List UInt8) : Json :=
  match m, mask with
  | m, none => matchStatement c.symbol (m.expr p) (m.value data)
  | .address dir, some mask =>
    matchStatement c.symbol (Meaning.expr p (.address dir))
      (single "prefix" (.object [("addr", addressValue data), ("len", .nat (maskOnes mask))]))
  | .ctState, some mask =>
    if c = .ne ∧ data.all (· == 0) then
      matchStatement "in" (Meaning.expr p .ctState) (ctNames mask)
    else
      matchStatement c.symbol
        (single "&" (.array [Meaning.expr p .ctState, bigEndian mask])) (bigEndian data)
  | m, some mask =>
    matchStatement c.symbol (single "&" (.array [m.expr p, bigEndian mask])) (bigEndian data)

/-- What a lookup asks about: the elements of an anonymous set, or the name of a set. -/
def lookupTarget (sets : List AnonymousSet) (table : Table) (name : String) : Json :=
  match findAnonymous? sets table name with
  | some s => single "set" (elementValues s.keyType s.elements)
  | none => .string ("@" ++ name)

def limitStatement (l : RateLimit) : Json :=
  let unit := match l.unit with
    | .packets => []
    | .bytes => [("rate_unit", .string "bytes")]
  single "limit" (.object ([("rate", .nat l.rate.toNat), ("per", .string l.per.name),
    ("burst", .nat l.burst.toNat), ("inv", .bool l.beyond)] ++ unit))

/-- The bytes that a program put into a register. -/
def immediate? (slot : Option Slot) (fault : RenderFault) : Except RenderFault (List UInt8) :=
  match slot with
  | none => .error .unwritten
  | some (.immediate data) => .ok data
  | some (.field _ _) => .error fault

def natAddress (s : Slots) : Option Register → Except RenderFault (List (String × Json) × Slots)
  | none => .ok ([], s)
  | some reg =>
    match immediate? (s reg) .natAddressNotImmediate with
    | .error fault => .error fault
    | .ok data =>
      match Address.ofBytes? data with
      | some a => .ok ([("addr", .string a.text)], s.set reg none)
      | none => .error .natAddressWidth

def natPort (s : Slots) : Option Register → Except RenderFault (List (String × Json) × Slots)
  | none => .ok ([], s)
  | some reg =>
    match immediate? (s reg) .natPortNotImmediate with
    | .error fault => .error fault
    | .ok data => .ok ([("port", bigEndian data)], s.set reg none)

def natStatement (s : Slots) (kind : NatKind) (address port : Option Register) :
    Except RenderFault (List Json × Slots) :=
  match natAddress s address with
  | .error fault => .error fault
  | .ok (a, s) =>
    match natPort s port with
    | .error fault => .error fault
    | .ok (b, s) => .ok ([single kind.name (.object (a ++ b))], s)

/-- The statements of one operation, and what the registers stand for behind it. A read takes the value
out of its register. -/
def renderOp (table : Table) (sets : List AnonymousSet) (s : Slots) :
    Op → Except RenderFault (List Json × Slots)
  | .load field reg => .ok ([], s.set reg (some (.field (.of table.family.profile field) none)))
  | .bitwise source target _ mask xor =>
    if xor.any (· != 0) then .error .bitwiseXor
    else
      match s source with
      | none => .error .unwritten
      | some (.immediate _) => .error .bitwiseImmediate
      | some (.field m _) => .ok ([], (s.set source none).set target (some (.field m (some mask))))
  | .compare c reg data =>
    match s reg with
    | none => .error .unwritten
    | some (.immediate _) => .error .compareImmediate
    | some (.field m mask) =>
      .ok ([compareStatement table.family.profile c m mask data], s.set reg none)
  | .lookup reg set invert =>
    match s reg with
    | none => .error .unwritten
    | some (.field m none) =>
      .ok ([matchStatement (Comparison.equal invert).symbol (m.expr table.family.profile)
        (lookupTarget sets table set.name)], s.set reg none)
    | some _ => .error .lookupMasked
  | .immediate reg data => .ok ([], s.set reg (some (.immediate data)))
  | .nat kind _ address port => natStatement s kind address port
  | .limit l => .ok ([limitStatement l], s)
  | .counter => .ok ([single "counter" .null], s)
  | .verdict v => .ok ([verdictStatement table.family v], s)

/-- The statements of the operations from number `pos` on. -/
def renderOps (table : Table) (sets : List AnonymousSet) (pos : Nat) (s : Slots) :
    Program → Except Error (List Json)
  | [] => .ok []
  | op :: ops =>
    match renderOp table sets s op with
    | .error fault => .error (.unrenderable pos fault)
    | .ok (js, s) =>
      match renderOps table sets (pos + 1) s ops with
      | .ok rest => .ok (js ++ rest)
      | .error e => .error e

def renderProgram (table : Table) (sets : List AnonymousSet) (p : Program) :
    Except Error (List Json) :=
  renderOps table sets 0 (fun _ => none) p

def tableBody (t : Table) : Json :=
  .object [("family", .string t.family.nftName), ("name", .string t.name)]

/-- A chain, with its hook if it is a base chain. -/
def chainBody (c : Chain) : Json :=
  let base := match c.base with
    | none => []
    | some b => [("type", Json.string b.chainType.name), ("hook", .string b.hook.name),
        ("prio", .number (.int b.priority)), ("policy", .string b.policy.name)]
  .object ([("family", .string c.table.family.nftName), ("table", .string c.table.name),
    ("name", .string c.name)] ++ base)

def flagNames (f : SetFlags) : List String :=
  (if f.constant then ["constant"] else []) ++ (if f.interval then ["interval"] else []) ++
    (if f.timeout then ["timeout"] else []) ++ if f.dynamic then ["dynamic"] else []

/-- A member that is left out of an object when there is nothing to say. -/
def memberIf (present : Bool) (name : String) (value : Json) : List (String × Json) :=
  if present then [(name, value)] else []

def setBody (s : MatchSet) (es : List Element) : Json :=
  let flags := flagNames s.flags
  let timeout := match s.timeout with
    | some d => [("timeout", Json.nat d.seconds)]
    | none => []
  .object ([("family", .string s.table.family.nftName), ("table", .string s.table.name),
    ("name", .string s.name), ("type", .string s.keyType.name)] ++
    memberIf (!flags.isEmpty) "flags" (.strings flags) ++ timeout ++
    memberIf (!es.isEmpty) "elem" (elementValues s.keyType es))

def elementsBody (s : MatchSet) (es : List Element) : Json :=
  .object [("family", .string s.table.family.nftName), ("table", .string s.table.name),
    ("name", .string s.name), ("elem", elementValues s.keyType es)]

def ruleBody (sets : List AnonymousSet) (r : Rule) (more : List (String × Json)) :
    Except Error Json :=
  match renderProgram r.table sets r.data.program with
  | .error e => .error e
  | .ok exprs =>
    let comment := match r.data.id with
      | some id => [("comment", Json.string (Input.comment id))]
      | none => []
    .ok (.object ([("family", .string r.table.family.nftName), ("table", .string r.table.name),
      ("chain", .string r.chain), ("expr", .array exprs)] ++ comment ++ more))

def deletedRuleBody (t : Table) (chain : String) (handle : Nat) : Json :=
  .object [("family", .string t.family.nftName), ("table", .string t.name),
    ("chain", .string chain), ("handle", .nat handle)]

def anonymousSets (batch : Batch) : List AnonymousSet :=
  batch.filterMap fun d => match d with
    | .addSet s es => if s.flags.anonymous then some ⟨s.table, s.name, s.keyType, es⟩ else none
    | _ => none

/-- The command of a declaration; none for an anonymous set. -/
def command (sets : List AnonymousSet) : Declaration → Except Error (Option Json)
  | .flushRuleset => .ok (some (single "flush" (single "ruleset" .null)))
  | .addTable t => .ok (some (single "add" (single "table" (tableBody t))))
  | .addChain c => .ok (some (single "add" (single "chain" (chainBody c))))
  | .addSet s es =>
    if s.flags.anonymous then .ok none
    else .ok (some (single "add" (single "set" (setBody s es))))
  | .addElements s es => .ok (some (single "add" (single "element" (elementsBody s es))))
  | .deleteElements s es => .ok (some (single "delete" (single "element" (elementsBody s es))))
  | .addRule r =>
    match ruleBody sets r [] with
    | .ok body => .ok (some (single "add" (single "rule" body)))
    | .error e => .error e
  | .insertRule r before =>
    let handle := match before with
      | some h => [("handle", Json.nat h)]
      | none => []
    match ruleBody sets r handle with
    | .ok body => .ok (some (single "insert" (single "rule" body)))
    | .error e => .error e
  | .deleteRule t chain handle =>
    .ok (some (single "delete" (single "rule" (deletedRuleBody t chain handle))))

def commands (sets : List AnonymousSet) : Batch → Except Error (List Json)
  | [] => .ok []
  | d :: ds =>
    match command sets d with
    | .error e => .error e
    | .ok j =>
      match commands sets ds with
      | .ok js => .ok (j.toList ++ js)
      | .error e => .error e

/-- The document of a batch: the version of the format, then the commands. -/
def document (batch : Batch) : Except Error Json :=
  match commands (anonymousSets batch) batch with
  | .ok js =>
    let version := single "metainfo" (single "json_schema_version" (.nat 1))
    .ok (single "nftables" (.array (version :: js))).canonical
  | .error e => .error e

/-- The SHA-256 digest of a document's compact text with all members ordered by name. -/
def checksum (j : Json) : String := Sha256.hexDigest j.canonical.text

end Firewall.Nft
