import Firewall.Nft.Document
import Firewall.Program.Machine
import Firewall.Proofs.ElementText
import Firewall.Proofs.Packet

namespace Firewall.Nft

inductive Effect where
  | noMatch
  | verdict (verdict : Verdict)
  | nat (kind : NatKind) (address : Address) (port : Option UInt16)
  deriving DecidableEq, Repr

/-- What one statement does: it lets the packet pass or not, or ends the rule. -/
inductive Move where
  | test (passed : Bool)
  | done (effect : Effect)
  deriving DecidableEq, Repr

def metaKeys : List (String × Meaning) :=
  [("iifname", .metaKey .inputInterface), ("oifname", .metaKey .outputInterface),
   ("l4proto", .metaKey .protocol), ("nfproto", .metaKey .netfilterFamily)]

def payloadFields : Family → List ((String × String) × Meaning)
  | .ipv4 =>
    [(("ip", "saddr"), .address .source), (("ip", "daddr"), .address .destination),
     (("ip", "protocol"), .protocol), (("th", "sport"), .port .source),
     (("th", "dport"), .port .destination), (("icmp", "type"), .icmpType)]
  | .ipv6 =>
    [(("ip6", "saddr"), .address .source), (("ip6", "daddr"), .address .destination),
     (("ip6", "nexthdr"), .protocol), (("th", "sport"), .port .source),
     (("th", "dport"), .port .destination), (("icmpv6", "type"), .icmpType)]

def stringAt? (name : String) (j : Json) : Option String := (j.get? name).bind Json.string?

/-- The field that the left side of a match names. -/
def fieldOf? (family : Family) (left : Json) : Option Meaning :=
  match left.get? "meta", left.get? "ct", left.get? "payload" with
  | some key, _, _ => (stringAt? "key" key).bind fun k => metaKeys.lookup k
  | none, some key, _ => if stringAt? "key" key = some "state" then some .ctState else none
  | none, none, some payload =>
    (stringAt? "protocol" payload).bind fun protocol =>
      (stringAt? "field" payload).bind fun field => (payloadFields family).lookup (protocol, field)
  | none, none, none => none

/-- The value of a field; a packet that is no ICMP message has no message type. -/
def Meaning.valueIn? (p : Packet) : Meaning → Option (List UInt8)
  | .metaKey key => some (p.metaField key)
  | .ctState => some (Bytes.ofNatHost 4 p.ctState.toNat)
  | .address dir => some (p.address dir).bytes
  | .protocol => some [p.protocol]
  | .port dir => some (p.portField dir)
  | .icmpType => if p.protocol = p.family.profile.icmpProtocol then some [p.icmpType] else none
  | .raw _ _ _ => none

def Meaning.keyType? (family : Family) : Meaning → Option KeyType
  | .address _ => some family.keyType
  | .port _ => some .inetService
  | .ctState => some .ctState
  | _ => none

/-- A value that is written as a text: an interface, a family or an address. -/
def Meaning.ofString? (m : Meaning) (text : String) : Option (List UInt8) :=
  match m with
  | .metaKey .inputInterface =>
    some (Bytes.resize interfaceNameLength.toNat (Bytes.ofString text))
  | .metaKey .outputInterface =>
    some (Bytes.resize interfaceNameLength.toNat (Bytes.ofString text))
  | .metaKey .netfilterFamily => [("ipv4", [2]), ("ipv6", [10])].lookup text
  | .address _ => (Address.parse? text.toList).map Address.bytes
  | _ => none

/-- A value that is written as a number: a protocol, a port or a message type. -/
def Meaning.ofNat? (m : Meaning) (n : Nat) : Option (List UInt8) :=
  match m with
  | .metaKey .protocol => some (Bytes.ofNat 1 n)
  | .metaKey .netfilterFamily => some (Bytes.ofNat 1 n)
  | .protocol => some (Bytes.ofNat 1 n)
  | .port _ => some (Bytes.ofNat 2 n)
  | .icmpType => some (Bytes.ofNat 1 n)
  | _ => none

/-- The text of a key within an inline set. -/
def keyOf? : Json → Option (List Char)
  | .string s => some s.toList
  | j => j.nat?.map Text.decimal

def keysOf? (j : Json) : Option (List Char) :=
  match j.get? "prefix", (j.get? "range").bind Json.items? with
  | some network, _ =>
    (stringAt? "addr" network).bind fun address =>
      ((network.get? "len").bind Json.nat?).map fun n => address.toList ++ '/' :: Text.decimal n
  | none, some [low, high] =>
    (keyOf? low).bind fun low => (keyOf? high).map fun high => low ++ '-' :: high
  | none, _ => keyOf? j

def elementOf? (j : Json) : Option (List Char) :=
  match j.get? "elem" with
  | some element => (element.get? "val").bind keysOf?
  | none => keysOf? j

/-- Whether two values start with the same bits. -/
def sameLeading (len : Nat) (as bs : List UInt8) : Bool :=
  as.length == bs.length &&
    Bytes.toNat as >>> (8 * as.length - len) == Bytes.toNat bs >>> (8 * bs.length - len)

/-- What the right side of a match stands for: one value, or all values that pass a test. -/
inductive Right where
  | value (bs : List UInt8)
  | keys (holds : List UInt8 → Bool)

def rightOf? (family : Family) (members : Members) (m : Meaning) (right : Json) : Option Right :=
  match right with
  | .string s =>
    match s.toList with
    | '@' :: name => some (.keys (members (String.ofList name)))
    | _ => (m.ofString? s).map .value
  | .object [("prefix", network)] =>
    (stringAt? "addr" network).bind fun address =>
      (m.ofString? address).bind fun bs =>
        ((network.get? "len").bind Json.nat?).map fun n => .keys (sameLeading n · bs)
  | .object [("set", elements)] =>
    (m.keyType? family).bind fun k =>
      (elements.items?.bind (List.mapM elementOf?)).map fun texts =>
        .keys fun value => texts.any (Spec.denotes k · value)
  | right => (right.nat?.bind m.ofNat?).map .value

/-- Whether a value compares with a right side; keys are only equal or not. -/
def Right.compare? (c : Comparison) : Right → Option (List UInt8 → Bool)
  | .value bs => some fun value => c.holds value bs
  | .keys holds =>
    match c with
    | .eq => some holds
    | .ne => some fun value => !holds value
    | _ => none

def ctStateBits : List (String × UInt32) :=
  [("invalid", 1), ("established", 2), ("related", 4), ("new", 8), ("untracked", 64)]

/-- Whether one of the named states is that of the connection. -/
def anyState? (names : Json) : Option (List UInt8 → Bool) :=
  (names.items?.bind (List.mapM fun j => j.string?.bind fun n => ctStateBits.lookup n)).map
    fun bits value => bits.any fun bit => UInt32.ofNat (Bytes.toNatHost value) &&& bit != 0

/-- What a match asks of the value of its field. -/
def testOf? (family : Family) (members : Members) (m : Meaning) (op : String) (right : Json) :
    Option (List UInt8 → Bool) :=
  if op = "in" then if m = .ctState then anyState? right else none
  else
    (Comparison.all.find? fun c => c.symbol = op).bind fun c =>
      (rightOf? family members m right).bind (Right.compare? c)

/-- Whether a packet passes a match; one without the field does not. -/
def matchOf? (family : Family) (members : Members) (p : Packet) (body : Json) : Option Bool :=
  (stringAt? "op" body).bind fun op =>
    ((body.get? "left").bind (fieldOf? family)).bind fun m =>
      ((body.get? "right").bind (testOf? family members m op)).map (m.valueIn? p).any

def rejectCodes : String → List (String × UInt8)
  | "icmpx" =>
    [("no-route", 0), ("port-unreachable", 1), ("host-unreachable", 2), ("admin-prohibited", 3)]
  | "icmp" =>
    [("net-unreachable", 0), ("host-unreachable", 1), ("prot-unreachable", 2),
     ("port-unreachable", 3), ("net-prohibited", 9), ("host-prohibited", 10),
     ("admin-prohibited", 13)]
  | "icmpv6" =>
    [("no-route", 0), ("admin-prohibited", 1), ("addr-unreachable", 3), ("port-unreachable", 4),
     ("policy-fail", 5), ("reject-route", 6)]
  | _ => []

def rejectCodeOf? (type : String) : Json → Option UInt8
  | .string name => (rejectCodes type).lookup name
  | code => code.nat?.map UInt8.ofNat

def rejectKinds : Family → List (String × RejectKind)
  | .ipv4 => [("icmpx", .icmpx), ("icmp", .icmp)]
  | .ipv6 => [("icmpx", .icmpx), ("icmpv6", .icmp)]

/-- The verdict as nftables has it: a TCP reset has no code. -/
def plainVerdict : Verdict → Verdict
  | .reject .tcpReset _ => .reject .tcpReset 0
  | v => v

def rejectOf? (family : Family) (body : Json) : Option Verdict :=
  (stringAt? "type" body).bind fun type =>
    if type = "tcp reset" then some (.reject .tcpReset 0)
    else
      ((rejectKinds family).lookup type).bind fun kind =>
        ((body.get? "expr").bind (rejectCodeOf? type)).map (.reject kind)

/-- A verdict, by the name of its statement. -/
def verdictOf? (family : Family) (name : String) (body : Json) : Option Verdict :=
  match name with
  | "accept" => some .accept
  | "drop" => some .drop
  | "return" => some .ret
  | "continue" => some .cont
  | "jump" => (stringAt? "target" body).map .jump
  | "goto" => (stringAt? "target" body).map .goto
  | "reject" => rejectOf? family body
  | _ => none

def natOf? (kind : NatKind) (body : Json) : Option Effect :=
  ((stringAt? "addr" body).bind fun s => Address.parse? s.toList).bind fun address =>
    match body.get? "port" with
    | none => some (.nat kind address none)
    | some port => port.nat?.map fun n => .nat kind address (some (UInt16.ofNat n))

/-- What a statement does with a packet. A limit is never exceeded. -/
def moveOf? (family : Family) (members : Members) (p : Packet) : Json → Option Move
  | .object [(name, body)] =>
    match name with
    | "match" => (matchOf? family members p body).map .test
    | "limit" =>
      match body.get? "inv" with
      | some (.bool beyond) => some (.test !beyond)
      | _ => none
    | "counter" => some (.test true)
    | "snat" => (natOf? .source body).map .done
    | "dnat" => (natOf? .destination body).map .done
    | name => (verdictOf? family name body).map fun v => .done (.verdict v)
  | _ => none

/-- An effect for the packets that pass a test. -/
def Effect.guard (passed : Bool) (e : Effect) : Effect := if passed then e else .noMatch

/-- What statements decide about a packet; `none` if one of them means nothing. -/
def effectOf? (family : Family) (members : Members) (p : Packet) : List Json → Option Effect
  | [] => some .noMatch
  | j :: js =>
    (moveOf? family members p j).bind fun move =>
      match move with
      | .test passed => (effectOf? family members p js).map (Effect.guard passed)
      | .done effect => some effect

end Firewall.Nft
