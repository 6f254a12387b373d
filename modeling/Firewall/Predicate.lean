import Firewall.MatchSet.Spec
import Firewall.Rule

namespace Firewall.Predicate

/-- The register that predicates use unless told otherwise. -/
def defaultRegister : Register := ⟨1⟩

/-- An interface name of 1 to 15 bytes, filled with zeros to the width of the field. -/
def interfaceBytes (name : String) : Except Error (List UInt8) :=
  let bs := Bytes.ofString name
  if bs.length = 0 ∨ interfaceNameLength.toNat ≤ bs.length then .error (.interfaceLength name)
  else .ok (Bytes.resize interfaceNameLength.toNat bs)

def interface (key : MetaKey) (name : String) (invert : Bool) : Except Error Program :=
  match interfaceBytes name with
  | .ok data =>
    .ok [.load (.metaKey key) defaultRegister, .compare (.equal invert) defaultRegister data]
  | .error fault => .error fault

def inputInterface (name : String) : Except Error Program := interface .inputInterface name false

def outputInterface (name : String) : Except Error Program := interface .outputInterface name false

def notInputInterface (name : String) : Except Error Program := interface .inputInterface name true

def notOutputInterface (name : String) : Except Error Program :=
  interface .outputInterface name true

def protocol (p : Profile) (number : UInt8) : Program :=
  [.load (.payload .network p.protocolOffset protocolLength) defaultRegister,
   .compare .eq defaultRegister [number]]

def tcp (p : Profile) : Program := protocol p protocolTcp

def udp (p : Profile) : Program := protocol p protocolUdp

def icmp (p : Profile) : Program := protocol p p.icmpProtocol

def echoRequest (p : Profile) : Program :=
  icmp p ++
    [.load (.payload .transport icmpTypeOffset icmpTypeLength) defaultRegister,
     .compare .eq defaultRegister [p.echoRequestType]]

def netfilterFamily (p : Profile) : Program :=
  [.load (.metaKey .netfilterFamily) defaultRegister,
   .compare .eq defaultRegister [p.netfilterNumber]]

def loadPort (dir : Direction) (reg : Register) : Op :=
  .load (.payload .transport (portOffset dir) portLength) reg

/-- A port, or any other if inverted. It is read from whatever transport header is there, so a rule asks for the
protocol before. -/
def port (dir : Direction) (number : UInt16) (invert : Bool) (reg : Register) : Program :=
  [loadPort dir reg, .compare (.equal invert) reg (portBytes number)]

def sourcePort (number : UInt16) : Program := port .source number false defaultRegister

def destinationPort (number : UInt16) : Program := port .destination number false defaultRegister

def portRange (dir : Direction) (low high : UInt16) (reg : Register) : Except Error Program :=
  if high < low then .error (.portsReversed low high)
  else .ok [loadPort dir reg, .compare .ge reg (portBytes low), .compare .le reg (portBytes high)]

/-- Checks that a set holds keys of a type. -/
def expectKey (set : MatchSet) (needs : KeyType) : Except Error Unit :=
  if set.keyType = needs then .ok () else .error (.setKeyType set.name set.keyType needs)

/-- A load and the lookup of the loaded value in a set. -/
def member (load : Op) (reg : Register) (set : MatchSet) (needs : KeyType) (invert : Bool) :
    Except Error Program :=
  match expectKey set needs with
  | .ok () => .ok [load, .lookup reg set.ref invert]
  | .error fault => .error fault

def portSet (dir : Direction) (set : MatchSet) (invert : Bool) (reg : Register) :
    Except Error Program :=
  member (loadPort dir reg) reg set .inetService invert

def sourcePortSet (set : MatchSet) : Except Error Program :=
  portSet .source set false defaultRegister

def destinationPortSet (set : MatchSet) : Except Error Program :=
  portSet .destination set false defaultRegister

/-- An address for a table of the family; one that stands for an IPv4 address is one. -/
def familyAddress (p : Profile) (a : Address) : Except Error Address :=
  if p.family.contains a.unmapped then .ok a.unmapped
  else .error (.addressFamily a.unmapped p.family)

def loadAddress (p : Profile) (dir : Direction) (reg : Register) : Op :=
  .load (.payload .network (p.addressOffset dir) p.addressLength) reg

/-- An address, or any other if inverted. -/
def address (p : Profile) (dir : Direction) (a : Address) (invert : Bool) (reg : Register) :
    Except Error Program :=
  match familyAddress p a with
  | .ok a => .ok [loadAddress p dir reg, .compare (.equal invert) reg a.bytes]
  | .error fault => .error fault

/-- The addresses of a network, or all others if inverted. -/
def network (p : Profile) (dir : Direction) (n : Network) (invert : Bool) (reg : Register) :
    Except Error Program :=
  if n.address.family = p.family then
    .ok [loadAddress p dir reg,
      .bitwise reg reg p.addressLength n.mask.bytes p.zeroXor,
      .compare (.equal invert) reg n.base.bytes]
  else .error (.networkFamily n p.family)

def sourceNetwork (p : Profile) (n : Network) : Except Error Program :=
  network p .source n false defaultRegister

def addressSet (p : Profile) (dir : Direction) (set : MatchSet) (invert : Bool) (reg : Register) :
    Except Error Program :=
  member (loadAddress p dir reg) reg set p.family.keyType invert

def sourceSet (p : Profile) (set : MatchSet) : Except Error Program :=
  addressSet p .source set false defaultRegister

def destinationSet (p : Profile) (set : MatchSet) : Except Error Program :=
  addressSet p .destination set false defaultRegister

def ctState (s : CtState) (reg : Register) : Program :=
  [.load .ctState reg,
   .bitwise reg reg ctStateLength s.bytes (List.replicate 4 0),
   .compare .ne reg (List.replicate 4 0)]

/-- The number of the connection's state is in a set, or is not if inverted. -/
def ctStateSet (set : MatchSet) (invert : Bool) : Except Error Program :=
  member (.load .ctState defaultRegister) defaultRegister set .ctState invert

def limit (rate : RateLimit) : Program := [.limit rate]

def counter : Program := [.counter]

def snat (p : Profile) (target : Address) : Except Error Program :=
  match familyAddress p target with
  | .ok target =>
    .ok [.immediate defaultRegister target.bytes, .nat .source p.family (some defaultRegister) none]
  | .error fault => .error fault

/-- The register that the port of a NAT statement is put into. -/
def portRegister : Register := ⟨2⟩

/-- Destination NAT to an address, and to a port if one is given. -/
def dnat (p : Profile) (target : Address) (targetPort : Option UInt16) :
    Except Error Program :=
  match familyAddress p target, targetPort with
  | .ok target, none =>
    .ok [.immediate defaultRegister target.bytes,
      .nat .destination p.family (some defaultRegister) none]
  | .ok target, some number =>
    .ok [.immediate defaultRegister target.bytes, .immediate portRegister (portBytes number),
      .nat .destination p.family (some defaultRegister) (some portRegister)]
  | .error fault, _ => .error fault

def verdict (v : Verdict) : Program := [.verdict v]

def accept : Program := verdict .accept

def drop : Program := verdict .drop

def rejectWith (kind : RejectKind) (code : UInt8) : Program := verdict (.reject kind code)

/-- Rejects the packet as for an unreachable port, in either family. -/
def reject : Program := rejectWith .icmpx 1

end Firewall.Predicate
