import Firewall.Error

namespace Firewall.Input

def port (p : UInt16) : Except InputFault UInt16 :=
  if p = 0 then .error .portZero else .ok p

def portText (spec : String) (cs : List Char) : Except InputFault UInt16 :=
  match Text.number? 65535 (Text.trim cs) with
  | some n => port (UInt16.ofNat n)
  | none => .error (.notPort spec)

/-- The first and last port of a specification: a port, or two with a hyphen between them. -/
def portSpec (spec : String) : Except InputFault (UInt16 × UInt16) :=
  match Text.splitOnce '-' spec.toList with
  | none =>
    match portText spec spec.toList with
    | .ok p => .ok (p, p)
    | .error fault => .error fault
  | some (low, high) =>
    match portText spec low with
    | .error fault => .error fault
    | .ok low =>
      match portText spec high with
      | .error fault => .error fault
      | .ok high => if high < low then .error (.portsReversed spec) else .ok (low, high)

def byteLength (s : String) : Nat := (Bytes.ofString s).length

def isInterfaceChar (c : Char) : Bool := Text.isAlphanumeric c || c == '.' || c == '-' || c == '_'

/-- An interface name of at most 15 bytes; an empty name means that there is none. -/
def interface (name : String) : Except InputFault String :=
  if name = "" then .ok ""
  else if 15 < byteLength name then .error (.interfaceTooLong name)
  else if name = "." ∨ name = ".." then .error .interfaceReserved
  else if name.toList.all isInterfaceChar then .ok name
  else .error (.interfaceCharacters name)

/-- What is put in front of the names of tables: at most 32 bytes, a letter first. -/
def tablePrefix (text : String) : Except InputFault String :=
  if 32 < byteLength text then .error .prefixTooLong
  else if text.toList.head?.any (fun c => !Text.isLetter c) then .error .prefixStart
  else if text.toList.all (fun c => Text.isAlphanumeric c || c == '_') then .ok text
  else .error .prefixCharacters

/-- The addresses that a specification names: the two bounds of a range, or the address of a
network. -/
def addressesOf (spec : String) : Except InputFault (List Address) :=
  match Text.splitOnce '-' spec.toList with
  | some (low, high) =>
    match Address.parse? (Text.trim low), Address.parse? (Text.trim high) with
    | some a, some b => .ok [a, b]
    | _, _ => .error (.notAddressRange spec)
  | none =>
    match Network.parse? (Text.trim spec.toList) with
    | some n => .ok [n.address]
    | none => .error (.notAddress spec)

/-- An address, a range or a network of a family, without the blanks around it. -/
def addressSpec (spec : String) (family : Family) : Except InputFault String :=
  match addressesOf spec with
  | .error fault => .error fault
  | .ok addresses =>
    if addresses.any (fun a => a.family != family) then .error (.wrongFamily spec family)
    else .ok (Text.trimmed spec)

def serviceName? (p : UInt16) : Option String :=
  match p.toNat with
  | 22 => some "SSH"
  | 53 => some "DNS"
  | 80 => some "HTTP"
  | 443 => some "HTTPS"
  | 25 => some "SMTP"
  | 3389 => some "RDP"
  | _ => none

/-- A note on a port that is well known or reserved for privileged programs. -/
def portNote? (p : UInt16) : Option String :=
  match serviceName? p with
  | some name => some s!"Port {decimalText p.toNat}: {name}"
  | none => if p ≤ 1024 then some s!"Privileged port {decimalText p.toNat}" else none

/-- A note on a trusted source that is never seen on an outside link. -/
def sourceNote? (n : Network) : Option String :=
  match n.address.family, n.address.isLoopback, n.address.isLinkLocal with
  | .ipv4, true, _ => some "Loopback range (127.x) is rejected on non-loopback interfaces"
  | .ipv4, false, true => some "Link-local range (169.254.x.x) - local network only"
  | .ipv6, true, _ => some "IPv6 loopback (::1) is rejected on non-loopback interfaces"
  | .ipv6, false, true => some "IPv6 link-local (fe80::/10) - local network only"
  | _, false, false => none

/-- A character that is safe in a comment. -/
def isCommentChar (c : Char) : Bool :=
  Text.isAlphanumeric c || [' ', '-', '_', '.', ':', '/'].contains c

/-- A rule's id as its comment: the safe characters, at most 64. -/
def comment (id : String) : String := String.ofList ((id.toList.filter isCommentChar).take 64)

end Firewall.Input
