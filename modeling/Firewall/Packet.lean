import Firewall.Program.Op

namespace Firewall

structure Packet where
  inputInterface : Option String
  outputInterface : Option String
  protocol : UInt8
  source : Address
  destination : Address
  sourcePort : UInt16
  destinationPort : UInt16
  icmpType : UInt8
  icmpCode : UInt8
  /-- The bit of the connection's state. -/
  ctState : UInt32
  deriving DecidableEq, Repr

namespace Packet

/-- The family of a packet, which is that of its source. -/
def family (p : Packet) : Family := p.source.family

/-- Whether source and destination are of one family. -/
def wellFormed (p : Packet) : Bool := p.destination.family == p.family

/-- The network header: zeros but for the protocol and the addresses. -/
def networkHeader? (p : Packet) : Option (List UInt8) :=
  match p.source, p.destination with
  | .v4 s, .v4 d =>
    some (List.replicate 9 0 ++ [p.protocol, 0, 0] ++ Bytes.ofNat 4 s.toNat ++ Bytes.ofNat 4 d.toNat)
  | .v6 s, .v6 d =>
    some (List.replicate 6 0 ++ [p.protocol, 0] ++ Bytes.ofNat 16 s.toNat ++ Bytes.ofNat 16 d.toNat)
  | _, _ => none

/-- The transport header, twenty bytes: type and code of an ICMP message, or the two ports. -/
def transportHeader (p : Packet) : List UInt8 :=
  if p.protocol = p.family.profile.icmpProtocol then
    [p.icmpType, p.icmpCode] ++ List.replicate 18 0
  else
    Bytes.ofNat 2 p.sourcePort.toNat ++ Bytes.ofNat 2 p.destinationPort.toNat ++
      List.replicate 16 0

/-- An interface name as the bytes of its field; no interface is an empty name. -/
def interfaceField (name : Option String) : List UInt8 :=
  Bytes.resize interfaceNameLength.toNat (Bytes.ofString (name.getD ""))

def metaField (p : Packet) : MetaKey → List UInt8
  | .inputInterface => interfaceField p.inputInterface
  | .outputInterface => interfaceField p.outputInterface
  | .protocol => [p.protocol]
  | .netfilterFamily => [p.family.profile.netfilterNumber]

def header? (p : Packet) : Header → Option (List UInt8)
  | .network => p.networkHeader?
  | .transport => some p.transportHeader

/-- The bytes from `start` up to `stop`, if there are so many. -/
def slice? (bs : List UInt8) (start stop : Nat) : Option (List UInt8) :=
  if start ≤ stop ∧ stop ≤ bs.length then some ((bs.drop start).take (stop - start)) else none

/-- The value of a field; `none` for bytes beyond the end of a header. -/
def field? (p : Packet) : Field → Option (List UInt8)
  | .metaKey key => some (p.metaField key)
  | .ctState => some (Bytes.ofNatHost 4 p.ctState.toNat)
  | .payload header offset length =>
    (p.header? header).bind fun bs => slice? bs offset.toNat (offset + length).toNat

end Packet
end Firewall
