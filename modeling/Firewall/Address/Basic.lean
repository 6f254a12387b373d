import Firewall.Bytes
import Firewall.Family

namespace Firewall

inductive Address where
  | v4 (bits : BitVec 32)
  | v6 (bits : BitVec 128)
  deriving DecidableEq, Repr

namespace Address

def family : Address → Family
  | .v4 _ => .ipv4
  | .v6 _ => .ipv6

def toNat : Address → Nat
  | .v4 b => b.toNat
  | .v6 b => b.toNat

def bytes : Address → List UInt8
  | .v4 b => Bytes.ofNat 4 b.toNat
  | .v6 b => Bytes.ofNat 16 b.toNat

def ofBytes? (bs : List UInt8) : Option Address :=
  if bs.length = 4 then some (.v4 (BitVec.ofNat 32 (Bytes.toNat bs)))
  else if bs.length = 16 then some (.v6 (BitVec.ofNat 128 (Bytes.toNat bs)))
  else none

/-- Whether an IPv6 address stands for an IPv4 address, as `::ffff:a.b.c.d` does. -/
def isMapped (b : BitVec 128) : Bool :=
  b.toNat >>> 32 == 0xFFFF

/-- An IPv6 address that stands for an IPv4 address becomes that address. -/
def unmapped : Address → Address
  | .v4 b => .v4 b
  | .v6 b => if isMapped b then .v4 (b.setWidth 32) else .v6 b

/-- Whether an address is only valid on its link: 169.254.0.0/16 and fe80::/10. -/
def isLinkLocal : Address → Bool
  | .v4 b => b.toNat >>> 16 == 0xA9FE
  | .v6 b => b.toNat >>> 118 == 0xFE80 >>> 6

/-- Whether an address is a loopback address: 127.0.0.0/8 and ::1. -/
def isLoopback : Address → Bool
  | .v4 b => b.toNat >>> 24 == 127
  | .v6 b => b.toNat == 1

end Address

/-- Whether an address belongs to a family; one that stands for an IPv4 address is one. -/
def Family.contains (f : Family) (a : Address) : Bool :=
  a.unmapped.family == f

/-- The mask of the first `n` of `w` bits. -/
def prefixMask (w n : Nat) : BitVec w :=
  BitVec.allOnes w <<< (w - n)

/-- An address with the length of its network part in bits; host bits stay as they are given. -/
structure Network where
  address : Address
  length : Nat
  length_le : length ≤ address.family.width
  deriving DecidableEq, Repr

namespace Network

def host (a : Address) : Network :=
  ⟨a, a.family.width, Nat.le_refl _⟩

/-- The network of an address with a length, if the address has that many bits. -/
def mk? (a : Address) (n : Nat) : Option Network :=
  if h : n ≤ a.family.width then some ⟨a, n, h⟩ else none

def mask (n : Network) : Address :=
  match n.address with
  | .v4 _ => .v4 (prefixMask 32 n.length)
  | .v6 _ => .v6 (prefixMask 128 n.length)

def base (n : Network) : Address :=
  match n.address with
  | .v4 b => .v4 (b &&& prefixMask 32 n.length)
  | .v6 b => .v6 (b &&& prefixMask 128 n.length)

def last (n : Network) : Address :=
  match n.address with
  | .v4 b => .v4 (b &&& prefixMask 32 n.length ||| ~~~prefixMask 32 n.length)
  | .v6 b => .v6 (b &&& prefixMask 128 n.length ||| ~~~prefixMask 128 n.length)

end Network

/-- The loopback range of a family, which never arrives on another interface. -/
def Family.loopbackNetwork : Family → Network
  | .ipv4 => ⟨.v4 0x7F000000#32, 8, by decide⟩
  | .ipv6 => ⟨.v6 1#128, 128, by decide⟩

end Firewall
