import Firewall.Family

namespace Firewall

inductive KeyType where
  | ipv4Addr
  | ipv6Addr
  | inetService
  | ctState
  deriving DecidableEq, Repr

namespace KeyType

def name : KeyType → String
  | .ipv4Addr => "ipv4_addr"
  | .ipv6Addr => "ipv6_addr"
  | .inetService => "inet_service"
  | .ctState => "ct_state"

def ofName? (s : String) : Option KeyType :=
  [KeyType.ipv4Addr, .ipv6Addr, .inetService, .ctState].find? fun k => k.name = s

def length : KeyType → Nat
  | .ipv4Addr => 4
  | .ipv6Addr => 16
  | .inetService => 2
  | .ctState => 4

def family? : KeyType → Option Family
  | .ipv4Addr => some .ipv4
  | .ipv6Addr => some .ipv6
  | .inetService => none
  | .ctState => none

end KeyType

def Family.keyType : Family → KeyType
  | .ipv4 => .ipv4Addr
  | .ipv6 => .ipv6Addr

end Firewall
