import Firewall.Address.Text
import Firewall.KeyType
import Firewall.Table

namespace Firewall

/-- Why a text that a user wrote is refused. -/
inductive InputFault where
  | portZero
  | notPort (spec : String)
  | portsReversed (spec : String)
  | interfaceEmpty
  | interfaceTooLong (name : String)
  | interfaceReserved
  | interfaceCharacters (name : String)
  | prefixTooLong
  | prefixStart
  | prefixCharacters
  | notAddressRange (spec : String)
  | notAddress (spec : String)
  | wrongFamily (spec : String) (family : Family)
  deriving DecidableEq, Repr

/-- Why a match program is refused; operations are counted from zero. -/
inductive ProgramFault where
  | empty
  | noTerminal
  | terminalInside (op : Nat)
  | foreignLayout (offset length : UInt32) (family : Family)
  | overwritten (op register : Nat)
  | tooWide (op length : Nat)
  | unwritten (op register : Nat)
  | bitwiseWidth (op width : Nat)
  | compareWidth (op length width : Nat)
  | natFamily (nat table : Family)
  | unused (register : Nat)
  deriving DecidableEq, Repr

/-- Why a match program has no nftables statement. -/
inductive RenderFault where
  | unwritten
  | bitwiseXor
  | bitwiseImmediate
  | compareImmediate
  | lookupMasked
  | natAddressNotImmediate
  | natAddressWidth
  | natPortNotImmediate
  deriving DecidableEq, Repr

/-- Why a ruleset refuses a declaration or a question. -/
inductive Rejection where
  | noTable (table : Table)
  | noChain (name : String)
  | noSet (name : String)
  | keyTypeTaken (set : String) (keyType : KeyType)
  | noRule (handle : Nat)
  deriving DecidableEq, Repr

/-- Every cause of failure. -/
inductive Error where
  | noDefaultRoute (family : Family)
  | noInterface (name : String)
  | registerRange (index : Nat)
  | ctStateEmpty
  | ctStateUndefined (mask : UInt32)
  | interfaceLength (name : String)
  | portsReversed (low high : UInt16)
  | addressFamily (address : Address) (family : Family)
  | networkFamily (network : Network) (family : Family)
  | packetMixed (source destination : Address)
  | program (fault : ProgramFault)
  | input (field : String) (fault : InputFault)
  | setKeyType (set : String) (has needs : KeyType)
  | elementWidth (set : String) (keyType : KeyType)
  | elementRange (set : String)
  | elementTimeout (set : String)
  | portRangeDiscrete (spec : String)
  | addressRangeDiscrete (spec : String)
  | networkDiscrete (spec : String)
  | addressOutsideSet (text : String) (family : Family)
  | networkOutsideSet (spec : String) (family : Family)
  | setUnnamed
  | unrenderable (op : Nat) (fault : RenderFault)
  | jumpDepth (chain : String)
  | configExists (path : String)
  | ctStateUnknown (name : String)
  | rateLimitMalformed (spec : String)
  | portMalformed (text spec : String)
  | portRangeReversed (spec : String)
  | addressMalformed (text spec : String)
  | networkMalformed (spec : String)
  | addressRangeReversed (spec : String)
  | namespaceName (name : String)
  | namespaceAbsent (name : String)
  | namespaceUnopened
  | namespaceClosed (name : String)
  | namespaceHeld
  | setUnknown (name : String) (table : Table)
  | rejected (cause : Rejection)
  | declarationRejected (index : Nat) (cause : Rejection)
  | commitFailed (reason : String)
  | nftFailed (reason stderr : String) (exitCode : Option Int)
  | nftMissing
  | nftNullArgument
  | serialization
  deriving DecidableEq, Repr

inductive Error.Kind where
  | discovery
  | validation
  | configuration
  | parse
  | netns
  | transaction
  | serialization
  deriving DecidableEq, Repr

def InputFault.message : InputFault → String
  | .portZero => "Port must be between 1 and 65535"
  | .notPort spec => s!"'{spec}' is not a port or port range"
  | .portsReversed spec => s!"Port range '{spec}' has start after end"
  | .interfaceEmpty => "empty interface name"
  | .interfaceTooLong name => s!"Interface name '{name}' too long (max 15 characters)"
  | .interfaceReserved => "Invalid interface name"
  | .interfaceCharacters name => s!"Interface name '{name}' contains invalid characters"
  | .prefixTooLong => "Table prefix too long (max 32 characters)"
  | .prefixStart => "Table prefix must start with a letter"
  | .prefixCharacters => "Table prefix may only contain letters, digits and '_'"
  | .notAddressRange spec => s!"'{spec}' is not an address range"
  | .notAddress spec => s!"'{spec}' is not an address or CIDR"
  | .wrongFamily spec family => s!"'{spec}' is not an {family.name} address"

def decimalText (n : Nat) : String := String.ofList (Text.decimal n)

def ProgramFault.message : ProgramFault → String
  | .empty => "rule has no operations"
  | .noTerminal => "rule does not end with a verdict or NAT statement"
  | .terminalInside op =>
    s!"terminal statement at op {decimalText op} is followed by more operations"
  | .foreignLayout offset length family =>
    s!"network load at offset {decimalText offset.toNat} len {decimalText length.toNat} uses the " ++
      s!"{family.other.name} layout in a {family.name} table"
  | .overwritten op register =>
    s!"op {decimalText op} overwrites register {decimalText register} before it was used"
  | .tooWide op length =>
    s!"op {decimalText op} stores {decimalText length} bytes in a 16 byte register"
  | .unwritten op register =>
    s!"op {decimalText op} reads register {decimalText register} before any load"
  | .bitwiseWidth op width =>
    s!"bitwise at op {decimalText op} does not match the {decimalText width} byte operand"
  | .compareWidth op length width =>
    s!"compare at op {decimalText op} has {decimalText length} bytes for a " ++
      s!"{decimalText width} byte field"
  | .natFamily nat table => s!"{nat.name} NAT statement in a {table.name} table"
  | .unused register => s!"register {decimalText register} is loaded but never compared"

def RenderFault.message : RenderFault → String
  | .unwritten => "register read before write"
  | .bitwiseXor => "bitwise xor"
  | .bitwiseImmediate => "bitwise on an immediate"
  | .compareImmediate => "compare on an immediate"
  | .lookupMasked => "lookup on a masked or immediate value"
  | .natAddressNotImmediate => "NAT address is not an immediate"
  | .natAddressWidth => "NAT address width"
  | .natPortNotImmediate => "NAT port is not an immediate"

def Rejection.message : Rejection → String
  | .noTable table => s!"table {table.label} does not exist"
  | .noChain name => s!"chain {name} does not exist"
  | .noSet name => s!"set {name} does not exist"
  | .keyTypeTaken set keyType => s!"set {set} exists with key type {keyType.name}"
  | .noRule handle => s!"rule handle {decimalText handle} does not exist"

namespace Error

def kind : Error → Kind
  | .noDefaultRoute _ | .noInterface _ => .discovery
  | .registerRange _ | .ctStateEmpty | .ctStateUndefined _ | .interfaceLength _
  | .portsReversed _ _ | .addressFamily _ _ | .networkFamily _ _ | .packetMixed _ _
  | .program _ | .input _ _ => .validation
  | .setKeyType _ _ _ | .elementWidth _ _ | .elementRange _ | .elementTimeout _
  | .portRangeDiscrete _ | .addressRangeDiscrete _ | .networkDiscrete _
  | .addressOutsideSet _ _ | .networkOutsideSet _ _ | .setUnnamed | .unrenderable _ _
  | .jumpDepth _ | .configExists _ => .configuration
  | .ctStateUnknown _ | .rateLimitMalformed _ | .portMalformed _ _ | .portRangeReversed _
  | .addressMalformed _ _ | .networkMalformed _ | .addressRangeReversed _ => .parse
  | .namespaceName _ | .namespaceAbsent _ | .namespaceUnopened | .namespaceClosed _
  | .namespaceHeld => .netns
  | .setUnknown _ _ | .rejected _ | .declarationRejected _ _ | .commitFailed _
  | .nftFailed _ _ _ | .nftMissing | .nftNullArgument => .transaction
  | .serialization => .serialization

/-- What is validated, for the failures of that kind. -/
def field : Error → String
  | .registerRange _ => "register"
  | .ctStateEmpty | .ctStateUndefined _ => "ct_state"
  | .interfaceLength _ => "interface"
  | .portsReversed _ _ => "port"
  | .addressFamily _ _ | .networkFamily _ _ => "address"
  | .packetMixed _ _ => "packet"
  | .program _ => "exprs"
  | .input field _ => field
  | _ => ""

/-- The bits of a connection state that have a meaning. -/
def definedCtBits : UInt32 := 0x4F

def maskText (mask : UInt32) : String := "0x" ++ String.ofList (Text.hex mask.toNat)

/-- The wording of a failure without the heading of its kind. -/
def detail : Error → String
  | .noDefaultRoute family => s!"no {family.name} default route"
  | .noInterface name => s!"interface {name} not found"
  | .registerRange index => s!"register {decimalText index} out of range 1..=4"
  | .ctStateEmpty => "mask must not be empty"
  | .ctStateUndefined mask =>
    s!"mask {maskText mask} contains undefined bits {maskText (mask &&& ~~~definedCtBits)}"
  | .interfaceLength name => s!"'{name}' must be 1-15 bytes"
  | .portsReversed low high =>
    s!"range {decimalText low.toNat}-{decimalText high.toNat} has start above end"
  | .addressFamily address family =>
    s!"{address.text} cannot be matched in a {family.name} table"
  | .networkFamily network family =>
    s!"{network.text} cannot be matched in a {family.name} table"
  | .packetMixed source destination =>
    s!"source {source.text} and destination {destination.text} differ in family"
  | .program fault => fault.message
  | .input _ fault => fault.message
  | .setKeyType set has needs =>
    s!"set '{set}' holds {has.name} elements, predicate needs {needs.name}"
  | .elementWidth set keyType => s!"element width does not match {keyType.name} set '{set}'"
  | .elementRange set => s!"set '{set}' is not interval-capable; ranges are not allowed"
  | .elementTimeout set => s!"set '{set}' has no timeout flag; per-element timeouts are not allowed"
  | .portRangeDiscrete spec => s!"port range '{spec}' requires an interval set"
  | .addressRangeDiscrete spec => s!"address range '{spec}' requires an interval set"
  | .networkDiscrete spec => s!"CIDR '{spec}' requires an interval set"
  | .addressOutsideSet text family =>
    s!"address '{text}' does not belong to the {family.name} set family"
  | .networkOutsideSet spec family =>
    s!"CIDR '{spec}' does not belong to the {family.name} set family"
  | .setUnnamed => "named set without a name"
  | .unrenderable op fault =>
    s!"cannot render op {decimalText op} as nftables JSON: {fault.message}"
  | .jumpDepth chain => s!"jump depth exceeded at chain {chain}"
  | .configExists path => s!"{path} already exists (use --force to overwrite)"
  | .ctStateUnknown name => s!"unknown ct state '{name}'"
  | .rateLimitMalformed spec => s!"invalid rate limit '{spec}'"
  | .portMalformed text spec => s!"invalid port '{text}' in '{spec}'"
  | .portRangeReversed spec => s!"port range '{spec}' is reversed"
  | .addressMalformed text spec => s!"invalid address '{text}' in '{spec}'"
  | .networkMalformed spec => s!"invalid CIDR '{spec}'"
  | .addressRangeReversed spec => s!"address range '{spec}' is reversed"
  | .namespaceName name => s!"invalid namespace name '{name}'"
  | .namespaceAbsent name => s!"cannot open /var/run/netns/{name}"
  | .namespaceUnopened => "cannot open /proc/thread-self/ns/net"
  | .namespaceClosed name => s!"setns into {name} failed"
  | .namespaceHeld => "setns into origin namespace failed"
  | .setUnknown name table => s!"set {name} does not exist in table {table.label}"
  | .rejected cause => cause.message
  | .declarationRejected index cause => s!"declaration {decimalText index}: {cause.message}"
  | .commitFailed reason => reason
  | .nftFailed reason _ _ => reason
  | .nftMissing => "failed to spawn nft: No such file or directory (os error 2)"
  | .nftNullArgument => "failed to spawn nft: nul byte found in provided data"
  | .serialization => ""

def heading (e : Error) : String :=
  match e.kind with
  | .discovery => "Discovery error: "
  | .validation => s!"Validation error in {e.field}: "
  | .configuration => "Configuration error: "
  | .parse => "Parse error: "
  | .netns => "Namespace error: "
  | .transaction => "Transaction error: "
  | .serialization => "JSON error"

def message (e : Error) : String := e.heading ++ e.detail

def stderr? : Error → Option String
  | .commitFailed reason => some reason
  | .nftFailed _ stderr _ => some stderr
  | _ => none

def exitCode? : Error → Option Int
  | .commitFailed _ => some 1
  | .nftFailed _ _ code => code
  | _ => none

end Error
end Firewall
