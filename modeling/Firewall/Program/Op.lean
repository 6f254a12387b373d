import Firewall.CtState
import Firewall.RateLimit

namespace Firewall

/-- A register, by its number: those of the kernel are 1 to 4, and only a batch that comes from elsewhere can name
others, which are then registers like these. -/
structure Register where
  number : UInt8
  deriving DecidableEq, Repr

namespace Register

def index (r : Register) : Nat := r.number.toNat

/-- All registers that have a number, in its order. -/
def all : List Register := (List.range UInt8.size).map fun n => ⟨UInt8.ofNat n⟩

def inKernel (r : Register) : Bool := 1 ≤ r.index && r.index ≤ 4

/-- The register of the kernel that has that number. -/
def ofIndex (n : Nat) : Except Error Register :=
  if 1 ≤ n ∧ n ≤ 4 then .ok ⟨UInt8.ofNat n⟩ else .error (.registerRange n)

def width : Nat := 16

end Register

/-- The header that a payload offset counts from. -/
inductive Header where
  | network
  | transport
  deriving DecidableEq, Repr

/-- What is known of a packet besides its headers. -/
inductive MetaKey where
  | inputInterface
  | outputInterface
  | protocol
  | netfilterFamily
  deriving DecidableEq, Repr

/-- A value that a packet brings along. -/
inductive Field where
  | metaKey (key : MetaKey)
  | payload (header : Header) (offset length : UInt32)
  | ctState
  deriving DecidableEq, Repr

def MetaKey.length : MetaKey → UInt32
  | .inputInterface => interfaceNameLength
  | .outputInterface => interfaceNameLength
  | .protocol => 1
  | .netfilterFamily => 1

def Field.length : Field → UInt32
  | .metaKey key => key.length
  | .payload _ _ length => length
  | .ctState => ctStateLength

/-- Comparisons of byte strings. -/
inductive Comparison where
  | eq
  | ne
  | lt
  | le
  | gt
  | ge
  deriving DecidableEq, Repr

namespace Comparison

def all : List Comparison := [.eq, .ne, .lt, .le, .gt, .ge]

def symbol : Comparison → String
  | .eq => "=="
  | .ne => "!="
  | .lt => "<"
  | .le => "<="
  | .gt => ">"
  | .ge => ">="

/-- Whether a comparison holds of two strings in that order. -/
def ofOrder : Comparison → Ordering → Bool
  | .eq, o => o == .eq
  | .ne, o => o != .eq
  | .lt, o => o == .lt
  | .le, o => o != .gt
  | .gt, o => o == .gt
  | .ge, o => o != .lt

/-- Whether a comparison holds of two byte strings, the most significant byte first. -/
def holds (c : Comparison) (left right : List UInt8) : Bool :=
  c.ofOrder (Bytes.order left right)

def equal (invert : Bool) : Comparison := if invert then .ne else .eq

end Comparison

/-- A set as a lookup refers to it. -/
structure SetRef where
  name : String
  id : Nat
  deriving DecidableEq, Repr

/-- How the sender of a rejected packet is told. -/
inductive RejectKind where
  | icmp
  | icmpx
  | tcpReset
  deriving DecidableEq, Repr

def RejectKind.name : RejectKind → String
  | .icmp => "icmp"
  | .icmpx => "icmpx"
  | .tcpReset => "tcp reset"

/-- What is decided about a packet, or where its evaluation goes on. -/
inductive Verdict where
  | accept
  | drop
  | reject (kind : RejectKind) (code : UInt8)
  | jump (chain : String)
  | goto (chain : String)
  | ret
  | cont
  deriving DecidableEq, Repr

def Verdict.text : Verdict → String
  | .accept => "accept"
  | .drop => "drop"
  | .reject kind code => s!"reject with {kind.name} {decimalText code.toNat}"
  | .jump chain => s!"jump {chain}"
  | .goto chain => s!"goto {chain}"
  | .ret => "return"
  | .cont => "continue"

inductive NatKind where
  | source
  | destination
  deriving DecidableEq, Repr

def NatKind.name : NatKind → String
  | .source => "snat"
  | .destination => "dnat"

inductive Op where
  | load (field : Field) (reg : Register)
  | bitwise (source target : Register) (length : UInt32) (mask xor : List UInt8)
  | compare (comparison : Comparison) (reg : Register) (data : List UInt8)
  | lookup (reg : Register) (set : SetRef) (invert : Bool)
  | immediate (reg : Register) (data : List UInt8)
  | limit (rate : RateLimit)
  | counter
  | nat (kind : NatKind) (family : Family) (address port : Option Register)
  | verdict (verdict : Verdict)
  deriving DecidableEq, Repr

/-- The operations of a rule in order. -/
abbrev Program := List Op

/-- A verdict or a NAT statement ends a rule. -/
def Op.isTerminal : Op → Bool
  | .verdict _ => true
  | .nat _ _ _ _ => true
  | _ => false

def Op.set? : Op → Option SetRef
  | .lookup _ set _ => some set
  | _ => none

def Program.sets (p : Program) : List SetRef := p.filterMap Op.set?

/-- The registers that an operation names, in the order source, target, address, port. -/
def Op.registers : Op → List Register
  | .load _ reg => [reg]
  | .bitwise source target _ _ _ => [source, target]
  | .compare _ reg _ => [reg]
  | .lookup reg _ _ => [reg]
  | .immediate reg _ => [reg]
  | .nat _ _ address port => address.toList ++ port.toList
  | .limit _ => []
  | .counter => []
  | .verdict _ => []

/-- A program that names registers of the kernel only; of others the first is reported. -/
def Program.checkRegisters (p : Program) : Except Error Program :=
  match (p.flatMap Op.registers).find? fun r => !r.inKernel with
  | some r => .error (.registerRange r.index)
  | none => .ok p

end Firewall
