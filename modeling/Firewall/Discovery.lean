import Firewall.Namespace

namespace Firewall.Discovery

structure Route where
  metric : Nat
  interface : List Char
  deriving DecidableEq, Repr

/-- Routes are preferred by metric, then by the name of their interface. -/
def Route.before (a b : Route) : Bool :=
  a.metric < b.metric || (a.metric == b.metric && a.interface < b.interface)

def best? : List Route → Option Route
  | [] => none
  | r :: rs =>
    match best? rs with
    | none => some r
    | some b => if b.before r then some b else some r

/-- The default route that a line of the IPv4 route table describes: destination and mask are zero and
the route is up. -/
def route4? (line : List Char) : Option Route :=
  match Text.fields line with
  | interface :: destination :: _ :: flags :: _ :: _ :: metric :: mask :: _ =>
    if destination = List.replicate 8 '0' ∧ mask = List.replicate 8 '0' then
      match Text.hexNumber? 0xFFFFFFFF flags, Text.number? 0xFFFFFFFF metric with
      | some flags, some metric => if flags % 2 = 1 then some ⟨metric, interface⟩ else none
      | _, _ => none
    else none
  | _ => none

/-- The default route that a line of the IPv6 route table describes. Unreachable defaults belong to the
loopback interface. -/
def route6? (line : List Char) : Option Route :=
  match Text.fields line with
  | destination :: length :: _ :: _ :: _ :: metric :: _ :: _ :: _ :: interface :: _ =>
    if destination = List.replicate 32 '0' ∧ length = ['0', '0'] ∧ interface ≠ ['l', 'o'] then
      (Text.hexNumber? 0xFFFFFFFF metric).map fun metric => ⟨metric, interface⟩
    else none
  | _ => none

/-- The interface of the default route in the IPv4 route table, whose first line is a heading. -/
def defaultInterface4? (table : String) : Option String :=
  (best? (((Text.lines table.toList).drop 1).filterMap route4?)).map fun r =>
    String.ofList r.interface

def defaultInterface6? (table : String) : Option String :=
  (best? ((Text.lines table.toList).filterMap route6?)).map fun r => String.ofList r.interface

/-- The first address of a family that is not only valid on its link, or else the first of the
family. -/
def primaryAddress? (family : Family) (addresses : List Address) : Option Address :=
  let own := addresses.filter fun a => a.family = family
  match own.find? fun a => !a.isLinkLocal with
  | some a => some a
  | none => own.head?

/-- Facts about a host: the outside interface, the addresses of interfaces, and what it allows of network
namespaces. -/
structure Host where
  outside : String
  interfaces : List (String × List Address)
  namespaces : Namespaces
  deriving DecidableEq, Repr

namespace Host

/-- A host with one interface and no named namespaces. -/
def ofOutside (name : String) (address : Address) : Host := ⟨name, [(name, [address])], .named []⟩

def addAddresses (name : String) (addresses : List Address) :
    List (String × List Address) → List (String × List Address)
  | [] => [(name, addresses)]
  | (n, as) :: is =>
    if n = name then (n, as ++ addresses) :: is else (n, as) :: addAddresses name addresses is

def withInterface (h : Host) (name : String) (addresses : List Address) : Host :=
  { h with interfaces := addAddresses name addresses h.interfaces }

def addresses (h : Host) (name : String) : Except Error (List Address) :=
  match h.interfaces.find? fun i => i.1 = name with
  | some i => .ok i.2
  | none => .error (.noInterface name)

/-- The outside interface and its primary address of a family. -/
def defaultRoute (h : Host) (family : Family) : Except Error (String × Address) :=
  match h.addresses h.outside with
  | .error e => .error e
  | .ok as =>
    match primaryAddress? family as with
    | some a => .ok (h.outside, a)
    | none => .error (.noDefaultRoute family)

end Host
end Firewall.Discovery
