namespace Firewall

inductive Family where
  | ipv4
  | ipv6
  deriving DecidableEq, Repr, Inhabited

/-- The end of a flow that a predicate looks at. -/
inductive Direction where
  | source
  | destination
  deriving DecidableEq, Repr

namespace Family

def name : Family → String
  | .ipv4 => "ipv4"
  | .ipv6 => "ipv6"

def nftName : Family → String
  | .ipv4 => "ip"
  | .ipv6 => "ip6"

def ofName? (s : String) : Option Family :=
  if s = "ipv4" ∨ s = "ip" then some .ipv4
  else if s = "ipv6" ∨ s = "ip6" then some .ipv6
  else none

def other : Family → Family
  | .ipv4 => .ipv6
  | .ipv6 => .ipv4

/-- The length of an address in bits. -/
def width : Family → Nat
  | .ipv4 => 32
  | .ipv6 => 128

/-- IPv4 comes before IPv6. -/
def rank : Family → Nat
  | .ipv4 => 0
  | .ipv6 => 1

end Family

/-- Byte layout of one address family. -/
structure Profile where
  family : Family
  sourceOffset : UInt32
  destinationOffset : UInt32
  addressLength : UInt32
  /-- Offset of the protocol or next-header byte in the network header. -/
  protocolOffset : UInt32
  icmpProtocol : UInt8
  echoRequestType : UInt8
  /-- The number of the family in netfilter. -/
  netfilterNumber : UInt8
  deriving DecidableEq, Repr

def Family.profile : Family → Profile
  | .ipv4 => ⟨.ipv4, 12, 16, 4, 9, 1, 8, 2⟩
  | .ipv6 => ⟨.ipv6, 8, 24, 16, 6, 58, 128, 10⟩

namespace Profile

def addressOffset (p : Profile) : Direction → UInt32
  | .source => p.sourceOffset
  | .destination => p.destinationOffset

/-- The operand that changes no bit of an address. -/
def zeroXor (p : Profile) : List UInt8 :=
  List.replicate p.addressLength.toNat 0

end Profile

def protocolLength : UInt32 := 1

def portLength : UInt32 := 2

def portOffset : Direction → UInt32
  | .source => 0
  | .destination => 2

def icmpTypeOffset : UInt32 := 0

def icmpTypeLength : UInt32 := 1

/-- Interface names are compared as this many bytes, filled with zeros. -/
def interfaceNameLength : UInt32 := 16

def protocolTcp : UInt8 := 6

def protocolUdp : UInt8 := 17

end Firewall
