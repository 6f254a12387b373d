import Firewall.Config.File
import Firewall.Rule

namespace Firewall

open Json (Tree)

def Table.ofTree? (t : Tree) : Option Table := do
  let f ← t.record? ["family", "name"]
  return ⟨← f.get? "family" Family.ofTree?, ← f.get? "name" Tree.string?⟩

/-- A span of time. Its two members are the only ones; nanoseconds beyond a second are carried over. -/
def Duration.ofTree? (t : Tree) : Option Duration := do
  let known := match t with
    | .object ms => ms.all fun m => m.1 = some "secs" ∨ m.1 = some "nanos"
    | _ => true
  if !known then none
  else
    let f ← t.record? ["secs", "nanos"]
    let seconds ← f.get? "secs" (Tree.nat? 64)
    let nanos ← f.get? "nanos" (Tree.nat? 32)
    let seconds := seconds + nanos / 1000000000
    if seconds ≤ 0xFFFFFFFFFFFFFFFF then some ⟨seconds, nanos % 1000000000⟩ else none

def KeyType.ofTree? : Tree → Option KeyType :=
  Tree.choice? ([KeyType.ipv4Addr, .ipv6Addr, .inetService, .ctState].map fun k => (k.name, k))

def SetFlags.ofTree? (t : Tree) : Option SetFlags := do
  let f ← t.record? ["anonymous", "constant", "dynamic", "timeout", "interval"]
  return ⟨← f.get? "anonymous" Tree.bool?, ← f.get? "constant" Tree.bool?,
    ← f.get? "dynamic" Tree.bool?, ← f.get? "timeout" Tree.bool?, ← f.get? "interval" Tree.bool?⟩

def MatchSet.ofTree? (t : Tree) : Option MatchSet := do
  let f ← t.record? ["table", "family", "name", "id", "key_type", "flags", "timeout"]
  return {
    table := ⟨← f.get? "family" Family.ofTree?, ← f.get? "table" Tree.string?⟩
    name := ← f.get? "name" Tree.string?
    id := ← f.get? "id" (Tree.nat? 32)
    keyType := ← f.get? "key_type" KeyType.ofTree?
    flags := ← f.get? "flags" SetFlags.ofTree?
    timeout := ← f.getOption? "timeout" Duration.ofTree? }

def Element.ofTree? (t : Tree) : Option Element := do
  let f ← t.record? ["key", "key_end", "timeout"]
  return ⟨← f.get? "key" Tree.bytes?, ← f.getOption? "key_end" Tree.bytes?,
    ← f.getOption? "timeout" Duration.ofTree?⟩

def SetRef.ofTree? (t : Tree) : Option SetRef := do
  let f ← t.record? ["name", "id"]
  return ⟨← f.get? "name" Tree.string?, ← f.get? "id" (Tree.nat? 32)⟩

def BaseChain.ofTree? (t : Tree) : Option BaseChain := do
  let f ← t.record? ["hook", "chain_type", "priority", "policy"]
  return {
    hook := ← f.get? "hook" (Tree.choice? (Hook.all.map fun h => (h.name, h)))
    chainType := ← f.get? "chain_type" (Tree.choice? (ChainType.all.map fun c => (c.name, c)))
    priority := ← f.get? "priority" (Tree.int? (-0x80000000) 0x7FFFFFFF)
    policy := ← f.get? "policy" Policy.ofTree? }

def Chain.ofTree? (t : Tree) : Option Chain := do
  let f ← t.record? ["table", "name", "base"]
  return ⟨← f.get? "table" Table.ofTree?, ← f.get? "name" Tree.string?,
    ← f.getOption? "base" BaseChain.ofTree?⟩

def Json.Tree.word? (t : Tree) : Option UInt32 := (t.nat? 32).map UInt32.ofNat

def Field.ofTree? (t : Tree) : Option Field := do
  match ← t.variant? with
  | ("Meta", some c) =>
    c.choice? [("iifname", .metaKey .inputInterface), ("oifname", .metaKey .outputInterface),
      ("l4proto", .metaKey .protocol), ("nfproto", .metaKey .netfilterFamily)]
  | ("Payload", some c) =>
    let f ← c.namedRecord? ["base", "offset", "len"]
    let header ← f.get? "base" (Tree.choice? [("network", .network), ("transport", .transport)])
    return .payload header (← f.get? "offset" Tree.word?) (← f.get? "len" Tree.word?)
  | ("CtState", none) => return .ctState
  | ("CtState", some .null) => return .ctState
  | _ => none

def Comparison.ofTree? : Tree → Option Comparison :=
  Tree.choice? [("Eq", .eq), ("Neq", .ne), ("Lt", .lt), ("Lte", .le), ("Gt", .gt), ("Gte", .ge)]

def RejectKind.ofTree? : Tree → Option RejectKind :=
  Tree.choice? [("IcmpUnreachable", .icmp), ("IcmpxUnreachable", .icmpx), ("TcpReset", .tcpReset)]

def Verdict.ofTree? (t : Tree) : Option Verdict := do
  match ← t.variant? with
  | ("Reject", some c) =>
    let f ← c.namedRecord? ["kind", "code"]
    return .reject (← f.get? "kind" RejectKind.ofTree?)
      (UInt8.ofNat (← f.get? "code" (Tree.nat? 8)))
  | ("Jump", some c) => return .jump (← c.string?)
  | ("Goto", some c) => return .goto (← c.string?)
  | _ =>
    t.choice? [("Accept", .accept), ("Drop", .drop), ("Return", .ret), ("Continue", .cont)]

def RateLimit.ofTree? (t : Tree) : Option RateLimit := do
  let f ← t.record? ["rate", "unit", "per", "burst", "over"]
  return {
    rate := UInt64.ofNat (← f.get? "rate" (Tree.nat? 64))
    unit := ← f.get? "unit" (Tree.choice? [("Packets", .packets), ("Bytes", .bytes)])
    per := ← f.get? "per" (Tree.choice? [("Second", .second), ("Minute", .minute),
      ("Hour", .hour), ("Day", .day), ("Week", .week)])
    burst := ← f.get? "burst" Tree.word?
    beyond := ← f.get? "over" Tree.bool? }

def Register.ofTree? (t : Tree) : Option Register := (t.nat? 8).map fun n => ⟨UInt8.ofNat n⟩

def Op.ofTree? (t : Tree) : Option Op := do
  match ← t.variant? with
  | ("Load", some c) =>
    let f ← c.namedRecord? ["field", "reg"]
    return .load (← f.get? "field" Field.ofTree?) (← f.get? "reg" Register.ofTree?)
  | ("Bitwise", some c) =>
    let f ← c.namedRecord? ["src", "dst", "len", "mask", "xor"]
    return .bitwise (← f.get? "src" Register.ofTree?) (← f.get? "dst" Register.ofTree?)
      (← f.get? "len" Tree.word?) (← f.get? "mask" Tree.bytes?) (← f.get? "xor" Tree.bytes?)
  | ("Cmp", some c) =>
    let f ← c.namedRecord? ["op", "reg", "data"]
    return .compare (← f.get? "op" Comparison.ofTree?) (← f.get? "reg" Register.ofTree?)
      (← f.get? "data" Tree.bytes?)
  | ("Lookup", some c) =>
    let f ← c.namedRecord? ["reg", "set", "invert"]
    return .lookup (← f.get? "reg" Register.ofTree?) (← f.get? "set" SetRef.ofTree?)
      (← f.get? "invert" Tree.bool?)
  | ("Immediate", some c) =>
    let f ← c.namedRecord? ["reg", "data"]
    return .immediate (← f.get? "reg" Register.ofTree?) (← f.get? "data" Tree.bytes?)
  | ("Limit", some c) => return .limit (← RateLimit.ofTree? c)
  | ("Counter", none) => return .counter
  | ("Counter", some .null) => return .counter
  | ("Nat", some c) =>
    let f ← c.namedRecord? ["kind", "family", "addr_reg", "port_reg"]
    return .nat (← f.get? "kind" (Tree.choice? [("Snat", .source), ("Dnat", .destination)]))
      (← f.get? "family" Family.ofTree?) (← f.getOption? "addr_reg" Register.ofTree?)
      (← f.getOption? "port_reg" Register.ofTree?)
  | ("Verdict", some c) => return .verdict (← Verdict.ofTree? c)
  | _ => none

def Program.ofTree? : Tree → Option Program := Tree.list? Op.ofTree?

def RuleData.ofTree? (t : Tree) : Option RuleData := do
  let f ← t.record? ["id", "exprs", "handle", "position"]
  return ⟨← f.getOption? "id" Tree.string?, ← f.get? "exprs" Program.ofTree?,
    ← f.getOption? "handle" (Tree.nat? 64), ← f.getOption? "position" (Tree.nat? 64)⟩

def Rule.ofTree? (t : Tree) : Option Rule := do
  let f ← t.record? ["table", "chain", "data"]
  return ⟨← f.get? "table" Table.ofTree?, ← f.get? "chain" Tree.string?,
    ← f.get? "data" RuleData.ofTree?⟩

def MatchSet.withElementsOfTree? (t : Tree) : Option (MatchSet × List Element) := do
  let f ← t.namedRecord? ["set", "elements"]
  return (← f.get? "set" MatchSet.ofTree?, ← f.get? "elements" (Tree.list? Element.ofTree?))

def Declaration.ofTree? (t : Tree) : Option Declaration := do
  match ← t.variant? with
  | ("FlushRuleset", none) => return .flushRuleset
  | ("FlushRuleset", some .null) => return .flushRuleset
  | ("AddTable", some c) => return .addTable (← Table.ofTree? c)
  | ("AddChain", some c) => return .addChain (← Chain.ofTree? c)
  | ("AddSet", some c) =>
    let (s, es) ← MatchSet.withElementsOfTree? c
    return .addSet s es
  | ("SetAddElements", some c) =>
    let (s, es) ← MatchSet.withElementsOfTree? c
    return .addElements s es
  | ("SetDeleteElements", some c) =>
    let (s, es) ← MatchSet.withElementsOfTree? c
    return .deleteElements s es
  | ("AddRule", some c) => return .addRule (← Rule.ofTree? c)
  | ("InsertRule", some c) =>
    let f ← c.namedRecord? ["rule", "before"]
    return .insertRule (← f.get? "rule" Rule.ofTree?) (← f.getOption? "before" (Tree.nat? 64))
  | ("DeleteRule", some c) =>
    let f ← c.namedRecord? ["table", "chain", "handle"]
    return .deleteRule (← f.get? "table" Table.ofTree?) (← f.get? "chain" Tree.string?)
      (← f.get? "handle" (Tree.nat? 64))
  | _ => none

def Batch.ofTree? : Tree → Option Batch := Tree.list? Declaration.ofTree?

end Firewall
