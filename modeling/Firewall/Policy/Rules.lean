import Firewall.Policy.Layout
import Firewall.Predicate

namespace Firewall

/-- A rule to append to a chain. -/
structure PlannedRule where
  chain : Chain
  data : RuleData
  deriving DecidableEq, Repr

/-- What the rules are compiled from. -/
structure Compiler where
  config : Config
  layout : Layout
  outsideInterface : String
  outsideAddress : Address
  deriving DecidableEq, Repr

namespace Compiler

open Predicate

def loopbackInterface : String := "lo"

def dnsPort : UInt16 := 53

def smtpRelayPort : UInt16 := 25

def profile (c : Compiler) : Profile := c.layout.filter.family.profile

/-- A rule from its parts; the first part that cannot be built is the failure. -/
def rule (chain : Chain) (id : String) (parts : List (Except Error Program)) :
    Except Error PlannedRule :=
  match Spec.readAll (fun part => part) parts with
  | .ok programs => .ok ⟨chain, .named id programs.flatten⟩
  | .error e => .error e

/-- Rules in order; the first that cannot be built is the failure. -/
def rules (rs : List (Except Error PlannedRule)) : Except Error (List PlannedRule) :=
  Spec.readAll (fun r => r) rs

def groups (gs : List (Except Error (List PlannedRule))) : Except Error (List PlannedRule) :=
  (Spec.readAll (fun g => g) gs).map List.flatten

/-- The id of a rule for one interface. -/
def idFor (name interface : String) : String := name ++ ":" ++ interface

/-- Adds names that are not there yet. -/
def addNames (found : List String) : List String → List String
  | [] => found
  | n :: ns => addNames (if found.contains n then found else found ++ [n]) ns

/-- The interfaces treated like the outside one, that one first. -/
def interfaces (c : Compiler) : List String := addNames [c.outsideInterface] c.config.interfaces

/-- Rejects a packet as for an unreachable port of the family. -/
def rejectPort (p : Profile) : Program :=
  rejectWith .icmp (match p.family with
    | .ipv4 => 3
    | .ipv6 => 4)

/-- The loopback interface is open, and its addresses come from nowhere else. -/
def loopback (c : Compiler) : Except Error (List PlannedRule) :=
  let p := c.profile
  rules [
    rule c.layout.input "loopback-in" [inputInterface loopbackInterface, .ok accept],
    rule c.layout.input "loopback-spoof"
      [notInputInterface loopbackInterface, sourceNetwork p p.family.loopbackNetwork,
       .ok (rejectPort p)],
    rule c.layout.output "loopback-out" [outputInterface loopbackInterface, .ok accept]]

/-- Nothing comes in from the blacklist. -/
def blacklist (c : Compiler) : Except Error (List PlannedRule) :=
  rules [rule c.layout.input "blacklist" [sourceSet c.profile c.layout.blacklist, .ok drop]]

def inState (s : CtState) : Except Error Program := .ok (ctState s defaultRegister)

/-- Messages about own connections come in, and own messages go out. -/
def hostBase (c : Compiler) (i : String) : Except Error (List PlannedRule) :=
  let p := c.profile
  rules [
    rule c.layout.input (idFor "icmp-in" i)
      [inputInterface i, .ok (icmp p), inState .establishedRelated, .ok accept],
    rule c.layout.output (idFor "icmp-out" i)
      [outputInterface i, .ok (icmp p), inState .newEstablished, .ok accept]]

/-- Name servers are asked over one protocol. -/
def dnsOver (c : Compiler) (i name : String) (protocol : Program) :
    List (Except Error PlannedRule) :=
  [rule c.layout.output (idFor ("dns-" ++ name ++ "-out") i)
     [outputInterface i, .ok protocol, .ok (destinationPort dnsPort), inState .newEstablished,
      .ok accept],
   rule c.layout.input (idFor ("dns-" ++ name ++ "-in") i)
     [inputInterface i, .ok protocol, .ok (sourcePort dnsPort), inState .establishedRelated,
      .ok accept]]

/-- The rules of the services that the configuration asks for. -/
def services (c : Compiler) (i : String) : Except Error (List PlannedRule) :=
  let p := c.profile
  let l := c.layout
  let dns := if c.config.services.dns then
      dnsOver c i "udp" (udp p) ++ dnsOver c i "tcp" (tcp p) else []
  let http := if c.config.services.http then [
      rule l.input (idFor "http-in" i)
        [inputInterface i, .ok (tcp p), destinationPortSet l.httpPorts, inState .newEstablished,
         .ok accept],
      rule l.output (idFor "http-out" i)
        [outputInterface i, .ok (tcp p), sourcePortSet l.httpPorts, inState .established,
         .ok accept]] else []
  let smtp := if c.config.services.smtp then [
      rule l.output (idFor "smtp-out" i)
        [outputInterface i, .ok (tcp p), destinationPortSet l.smtpPorts, inState .newEstablished,
         .ok accept],
      rule l.input (idFor "smtp-in" i)
        [inputInterface i, .ok (tcp p), sourcePortSet l.smtpPorts, inState .established,
         .ok accept]] else []
  rules (dns ++ http ++ smtp)

/-- Trusted sources may ask for an echo and reach the trusted ports. -/
def trusted (c : Compiler) (i : String) : Except Error (List PlannedRule) :=
  let p := c.profile
  let l := c.layout
  rules [
    rule l.input (idFor "trust-ping" i)
      [inputInterface i, .ok (echoRequest p), sourceSet p l.trusted, inState .new, .ok accept],
    rule l.input (idFor "trust-in" i)
      [inputInterface i, .ok (tcp p), destinationPortSet l.trustedPorts, sourceSet p l.trusted,
       inState .newEstablished, .ok accept],
    rule l.output (idFor "trust-out" i)
      [outputInterface i, .ok (tcp p), sourcePortSet l.trustedPorts, destinationSet p l.trusted,
       inState .established, .ok accept]]

/-- The port of the overlay is open, unless it is zero. -/
def overlayPort (c : Compiler) (i : String) : Except Error (List PlannedRule) :=
  let p := c.profile
  let number := c.config.overlayPort
  if number = 0 then .ok []
  else rules [
    rule c.layout.input (idFor "overlay-port-in" i)
      [inputInterface i, .ok (udp p), .ok (destinationPort number), .ok accept],
    rule c.layout.output (idFor "overlay-port-out" i)
      [outputInterface i, .ok (udp p), .ok (sourcePort number), .ok accept]]

/-- The rules that an interface keeps after a cleanup. -/
def common (c : Compiler) (i : String) : Except Error (List PlannedRule) :=
  groups [c.hostBase i, c.services i, c.trusted i]

def interfaceRules (c : Compiler) (i : String) : Except Error (List PlannedRule) :=
  groups [c.common i, c.overlayPort i]

/-- The rules of the overlay interface, if there is one. -/
def overlay (c : Compiler) : Except Error (List PlannedRule) :=
  let p := c.profile
  let l := c.layout
  let i := c.config.overlayInterface
  if !c.config.hasOverlay then .ok []
  else rules [
    rule l.input "overlay-ping" [inputInterface i, .ok (echoRequest p), inState .new, .ok accept],
    rule l.input "overlay-icmp-in"
      [inputInterface i, .ok (icmp p), inState .establishedRelated, .ok accept],
    rule l.input "manager-in"
      [inputInterface i, .ok (tcp p), destinationPortSet l.managerPorts, sourceSet p l.manager,
       inState .newEstablished, .ok accept],
    rule l.output "overlay-icmp-out"
      [outputInterface i, .ok (icmp p), inState .newEstablished, .ok accept],
    rule l.output "manager-out"
      [outputInterface i, .ok (tcp p), sourcePortSet l.managerPorts, destinationSet p l.manager,
       inState .established, .ok accept]]

/-- Relayed mail is never forwarded; the overlay is connected with the outside for forwarded addresses,
and with itself. -/
def forward (c : Compiler) : Except Error (List PlannedRule) :=
  let p := c.profile
  let l := c.layout
  let i := c.config.overlayInterface
  let o := c.outsideInterface
  let relay := rule l.forward "smtp-relay-drop"
    [.ok (tcp p), .ok (destinationPort smtpRelayPort), .ok drop]
  let routing := if c.config.hasOverlay then [
      rule l.forward "forward-out"
        [inputInterface i, sourceSet p l.forwarded, outputInterface o, .ok accept],
      rule l.forward "forward-in"
        [inputInterface o, destinationSet p l.forwarded, outputInterface i,
         inState .establishedRelated, .ok accept],
      rule l.forward "forward-overlay" [inputInterface i, outputInterface i, .ok accept]] else []
  rules (relay :: routing)

/-- Source NAT to the outside address. -/
def nat (c : Compiler) : Except Error (List PlannedRule) :=
  rules [rule c.layout.postrouting "wan-snat"
    [outputInterface c.outsideInterface, snat c.profile c.outsideAddress]]

def baseline (c : Compiler) : Except Error (List PlannedRule) :=
  groups ([c.loopback, c.blacklist] ++ c.interfaces.map c.interfaceRules ++
    [c.overlay, c.forward, c.nat])

/-- The rules that are left after a cleanup. -/
def cleanup (c : Compiler) : Except Error (List PlannedRule) :=
  groups (c.loopback :: c.interfaces.map c.common)

variable {σ : Type} [Sink σ]

def queue : List PlannedRule → Action (Pending σ) Unit
  | [] => pure ()
  | r :: rs => do
    Pending.addRule r.chain r.data
    queue rs

end Compiler
end Firewall
