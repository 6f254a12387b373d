import Firewall.Controller
import Firewall.Packet
import Firewall.Proofs.Decision
import Firewall.Proofs.Packet
import Firewall.Proofs.Predicate

namespace Firewall

namespace Packet

def isIcmp (p : Packet) : Bool := p.protocol == p.family.profile.icmpProtocol

def isEchoRequest (p : Packet) : Bool :=
  p.isIcmp && p.icmpType == p.family.profile.echoRequestType

def isTcp (p : Packet) : Bool := p.protocol == protocolTcp

def isUdp (p : Packet) : Bool := p.protocol == protocolUdp

/-- What answers a packet over an established connection. Type and code of an ICMP message are free. -/
def reply (p : Packet) (icmpType icmpCode : UInt8) (inputInterface outputInterface : Option String) :
    Packet :=
  { p with
    inputInterface, outputInterface, icmpType, icmpCode
    source := p.destination
    destination := p.source
    sourcePort := p.destinationPort
    destinationPort := p.sourcePort
    ctState := CtState.established.bits }

end Packet

/-- Whether a port is among those that specifications list. -/
def listed (specs : List String) (port : UInt16) : Bool :=
  specs.any fun spec =>
    match Input.portSpec spec with
    | .ok (low, high) => low ≤ port && port ≤ high
    | .error _ => false

def httpPorts : List UInt16 := [80, 443]

/-- The ports on which mail is handed in. -/
def smtpPorts : List UInt16 := [25, 465, 587]

/-- What packets are judged by. -/
structure HostPolicy where
  config : Config
  outsideInterface : String
  /-- The contents of the address sets. -/
  elements : AddressSet → List Element

namespace HostPolicy

variable (h : HostPolicy) (on : String → Bool) (p : Packet)

def holds (which : AddressSet) (a : Address) : Bool :=
  (h.elements which).any fun e => e.contains a.bytes

/-- Whether an interface is treated like the outside one, where `on` tells the interface. -/
def outside : Bool := (h.outsideInterface :: h.config.interfaces).any on

def overlay : Bool := h.config.hasOverlay && on h.config.overlayInterface

/-- What comes in from outside: messages about own connections, answers of name and mail servers, requests
to the web server, and what trusted sources and the overlay send. -/
def outsideInput : Bool :=
  (p.isIcmp && p.meets .establishedRelated) ||
  (h.config.services.dns && (p.isUdp || p.isTcp) && p.sourcePort == 53 &&
    p.meets .establishedRelated) ||
  (h.config.services.http && p.isTcp && httpPorts.contains p.destinationPort &&
    p.meets .newEstablished) ||
  (h.config.services.smtp && p.isTcp && smtpPorts.contains p.sourcePort && p.meets .established) ||
  (p.isEchoRequest && h.holds .trusted p.source && p.meets .new) ||
  (p.isTcp && listed h.config.trustedPorts p.destinationPort && h.holds .trusted p.source &&
    p.meets .newEstablished) ||
  (h.config.overlayPort != 0 && p.isUdp && p.destinationPort == h.config.overlayPort)

/-- What comes in over the overlay: echo requests, messages about own connections, and managers. -/
def overlayInput : Bool :=
  (p.isEchoRequest && p.meets .new) ||
  (p.isIcmp && p.meets .establishedRelated) ||
  (p.isTcp && listed h.config.managerPorts p.destinationPort && h.holds .manager p.source &&
    p.meets .newEstablished)

def outsideOutput : Bool :=
  (p.isIcmp && p.meets .newEstablished) ||
  (h.config.services.dns && (p.isUdp || p.isTcp) && p.destinationPort == 53 &&
    p.meets .newEstablished) ||
  (h.config.services.http && p.isTcp && httpPorts.contains p.sourcePort && p.meets .established) ||
  (h.config.services.smtp && p.isTcp && smtpPorts.contains p.destinationPort &&
    p.meets .newEstablished) ||
  (p.isTcp && listed h.config.trustedPorts p.sourcePort && h.holds .trusted p.destination &&
    p.meets .established) ||
  (h.config.overlayPort != 0 && p.isUdp && p.sourcePort == h.config.overlayPort)

/-- What goes out over the overlay. -/
def overlayOutput : Bool :=
  (p.isIcmp && p.meets .newEstablished) ||
  (p.isTcp && listed h.config.managerPorts p.sourcePort && h.holds .manager p.destination &&
    p.meets .established)

/-- What comes in from outside without regard to the overlay: messages, services and trusted sources. -/
def accessInput : Bool :=
  (p.isIcmp && p.meets .establishedRelated) ||
  (h.config.services.dns && (p.isUdp || p.isTcp) && p.sourcePort == 53 &&
    p.meets .establishedRelated) ||
  (h.config.services.http && p.isTcp && httpPorts.contains p.destinationPort &&
    p.meets .newEstablished) ||
  (h.config.services.smtp && p.isTcp && smtpPorts.contains p.sourcePort && p.meets .established) ||
  (p.isEchoRequest && h.holds .trusted p.source && p.meets .new) ||
  (p.isTcp && listed h.config.trustedPorts p.destinationPort && h.holds .trusted p.source &&
    p.meets .newEstablished)

theorem outsideInput_eq : h.outsideInput p = (h.accessInput p ||
    (h.config.overlayPort != 0 && p.isUdp && p.destinationPort == h.config.overlayPort)) := rfl

/-- What goes out there without regard to the overlay. -/
def accessOutput : Bool :=
  (p.isIcmp && p.meets .newEstablished) ||
  (h.config.services.dns && (p.isUdp || p.isTcp) && p.destinationPort == 53 &&
    p.meets .newEstablished) ||
  (h.config.services.http && p.isTcp && httpPorts.contains p.sourcePort && p.meets .established) ||
  (h.config.services.smtp && p.isTcp && smtpPorts.contains p.destinationPort &&
    p.meets .newEstablished) ||
  (p.isTcp && listed h.config.trustedPorts p.sourcePort && h.holds .trusted p.destination &&
    p.meets .established)

theorem outsideOutput_eq : h.outsideOutput p = (h.accessOutput p ||
    (h.config.overlayPort != 0 && p.isUdp && p.sourcePort == h.config.overlayPort)) := rfl

/-- How a family says that a port is unreachable. -/
def unreachable : Family → Verdict
  | .ipv4 => .reject .icmp 3
  | .ipv6 => .reject .icmp 4

/-- What is done with a packet for this host. -/
def inputVerdict : Verdict :=
  if on Compiler.loopbackInterface then .accept
  else if p.source.isLoopback then unreachable p.family
  else if h.holds .blacklist p.source then .drop
  else if h.outside on && h.outsideInput p || h.overlay on && h.overlayInput p then .accept
  else h.config.defaultPolicy.verdict

/-- What is done with a packet of this host. -/
def outputVerdict : Verdict :=
  if on Compiler.loopbackInterface ||
      (h.outside on && h.outsideOutput p || h.overlay on && h.overlayOutput p) then .accept
  else h.config.defaultPolicy.verdict

/-- What is forwarded between the overlay and the outside interface, where `arrives` and `leaves` tell the
interfaces. -/
def forwarded (arrives leaves : String → Bool) : Bool :=
  (arrives h.config.overlayInterface && h.holds .forward p.source && leaves h.outsideInterface) ||
  (arrives h.outsideInterface && h.holds .forward p.destination &&
    leaves h.config.overlayInterface && p.meets .establishedRelated) ||
  (arrives h.config.overlayInterface && leaves h.config.overlayInterface)

/-- What is done with a packet for another host. -/
def forwardVerdict (arrives leaves : String → Bool) : Verdict :=
  if p.isTcp && p.destinationPort == 25 then .drop
  else if h.config.hasOverlay && h.forwarded p arrives leaves then .accept
  else h.config.defaultPolicy.verdict

/-- The id of the rule that translates the source of a packet, if one does. -/
def translation (leaves : String → Bool) : Option String :=
  if leaves h.outsideInterface then some "wan-snat" else none

def names : List String :=
  Compiler.loopbackInterface :: h.outsideInterface :: h.config.interfaces ++
    if h.config.hasOverlay then [h.config.overlayInterface] else []

section Names

variable {h p} {on on' : String → Bool} (same : ∀ i ∈ h.names, on i = on' i)
include same

theorem loopback_congr : on Compiler.loopbackInterface = on' Compiler.loopbackInterface :=
  same _ (by simp [names])

theorem outside_congr : h.outside on = h.outside on' := by
  unfold outside
  rw [Bool.eq_iff_iff, List.any_eq_true, List.any_eq_true]
  apply exists_congr
  intro i
  apply and_congr_right
  intro member
  have named : i ∈ h.names :=
    List.mem_cons_of_mem _ (List.mem_append_left _ member)
  rw [same i named]

theorem overlay_congr : h.overlay on = h.overlay on' := by
  unfold overlay
  cases has : h.config.hasOverlay with
  | false => rfl
  | true => exact same _ (by simp [names, has])

/-- A verdict depends on what is known of the named interfaces only. -/
theorem inputVerdict_congr : h.inputVerdict on p = h.inputVerdict on' p := by
  unfold inputVerdict
  rw [loopback_congr same, outside_congr same, overlay_congr same]

theorem outputVerdict_congr : h.outputVerdict on p = h.outputVerdict on' p := by
  unfold outputVerdict
  rw [loopback_congr same, outside_congr same, overlay_congr same]

theorem forwardVerdict_congr {leaves leaves' : String → Bool}
    (same' : ∀ i ∈ h.names, leaves i = leaves' i) :
    h.forwardVerdict p on leaves = h.forwardVerdict p on' leaves' := by
  have outside : h.outsideInterface ∈ h.names := by simp [names]
  unfold forwardVerdict
  cases has : h.config.hasOverlay with
  | false => rfl
  | true =>
    have overlay : h.config.overlayInterface ∈ h.names := by simp [names, has]
    unfold forwarded
    rw [same _ overlay, same _ outside, same' _ overlay, same' _ outside]

end Names

section Replies

variable {h on p} {icmpType icmpCode : UInt8} {i o : Option String}

theorem reply_isIcmp (wf : p.wellFormed = true) :
    (p.reply icmpType icmpCode i o).isIcmp = p.isIcmp := by
  have family : (p.reply icmpType icmpCode i o).family = p.family := eq_of_beq wf
  rw [Packet.isIcmp, Packet.isIcmp, family]
  rfl

theorem isIcmp_of_isEchoRequest (e : p.isEchoRequest = true) : p.isIcmp = true :=
  (Bool.and_eq_true_iff.mp e).1

theorem reply_meets (s : CtState) :
    (p.reply icmpType icmpCode i o).meets s = (CtState.established.bits &&& s.bits != 0) := rfl

theorem meets_new (new : p.ctState = CtState.new.bits) (s : CtState) :
    p.meets s = (CtState.new.bits &&& s.bits != 0) := by
  rw [Packet.meets, new]

/-- The answer to a new packet from outside may go out there. -/
theorem outsideOutput_reply (wf : p.wellFormed = true) (new : p.ctState = CtState.new.bits)
    (allowed : h.outsideInput p = true) :
    h.outsideOutput (p.reply icmpType icmpCode i o) = true := by
  have notMet : p.meets .establishedRelated = false := meets_new new _
  have notEstablished : p.meets .established = false := meets_new new _
  have established : (p.reply icmpType icmpCode i o).meets .established = true :=
    (reply_meets _).trans (by decide)
  have met : (p.reply icmpType icmpCode i o).meets .newEstablished = true :=
    (reply_meets _).trans (by decide)
  simp only [outsideInput, notMet, notEstablished, Bool.and_false, Bool.false_or,
    Bool.or_false, Bool.or_eq_true] at allowed
  simp only [outsideOutput, established, met, Bool.and_true, Bool.or_eq_true]
  rcases allowed with ((http | ping) | trusted) | port
  · simp only [Bool.and_eq_true] at http
    obtain ⟨⟨service, port⟩, -⟩ := http
    refine .inl (.inl (.inl (.inr ?_)))
    rw [Bool.and_eq_true]
    exact ⟨by rw [Bool.and_eq_true]; exact service, port⟩
  · simp only [Bool.and_eq_true] at ping
    rw [reply_isIcmp wf, isIcmp_of_isEchoRequest ping.1.1]
    simp
  · simp only [Bool.and_eq_true] at trusted
    obtain ⟨⟨⟨tcp, port⟩, source⟩, -⟩ := trusted
    refine .inl (.inr ?_)
    simp only [Bool.and_eq_true]
    exact ⟨⟨tcp, port⟩, source⟩
  · exact .inr port

theorem overlayOutput_reply (wf : p.wellFormed = true) (new : p.ctState = CtState.new.bits)
    (allowed : h.overlayInput p = true) :
    h.overlayOutput (p.reply icmpType icmpCode i o) = true := by
  have notMet : p.meets .establishedRelated = false := meets_new new _
  have established : (p.reply icmpType icmpCode i o).meets .established = true :=
    (reply_meets _).trans (by decide)
  have met : (p.reply icmpType icmpCode i o).meets .newEstablished = true :=
    (reply_meets _).trans (by decide)
  simp only [overlayInput, notMet, Bool.and_false, Bool.or_false, Bool.or_eq_true] at allowed
  simp only [overlayOutput, established, met, Bool.and_true, Bool.or_eq_true]
  rcases allowed with ping | manager
  · simp only [Bool.and_eq_true] at ping
    rw [reply_isIcmp wf, isIcmp_of_isEchoRequest ping.1]
    exact .inl rfl
  · simp only [Bool.and_eq_true] at manager
    obtain ⟨⟨⟨tcp, port⟩, source⟩, -⟩ := manager
    refine .inr ?_
    simp only [Bool.and_eq_true]
    exact ⟨⟨tcp, port⟩, source⟩

/-- The answer to a new packet that goes out may come in from there. -/
theorem outsideInput_reply (wf : p.wellFormed = true) (new : p.ctState = CtState.new.bits)
    (allowed : h.outsideOutput p = true) :
    h.outsideInput (p.reply icmpType icmpCode i o) = true := by
  have notEstablished : p.meets .established = false := meets_new new _
  have established : (p.reply icmpType icmpCode i o).meets .established = true :=
    (reply_meets _).trans (by decide)
  have related : (p.reply icmpType icmpCode i o).meets .establishedRelated = true :=
    (reply_meets _).trans (by decide)
  simp only [outsideOutput, notEstablished, Bool.and_false, Bool.or_false, Bool.or_eq_true] at allowed
  simp only [outsideInput, established, related, Bool.and_true, Bool.or_eq_true]
  rcases allowed with ((icmp | dns) | mail) | port
  · rw [reply_isIcmp wf, (Bool.and_eq_true_iff.mp icmp).1]
    simp
  · have answered := (Bool.and_eq_true_iff.mp dns).1
    exact .inl (.inl (.inl (.inl (.inl (.inr answered)))))
  · have answered := (Bool.and_eq_true_iff.mp mail).1
    exact .inl (.inl (.inl (.inr answered)))
  · exact .inr port

theorem overlayInput_reply (wf : p.wellFormed = true) (new : p.ctState = CtState.new.bits)
    (allowed : h.overlayOutput p = true) :
    h.overlayInput (p.reply icmpType icmpCode i o) = true := by
  have notEstablished : p.meets .established = false := meets_new new _
  have related : (p.reply icmpType icmpCode i o).meets .establishedRelated = true :=
    (reply_meets _).trans (by decide)
  simp only [overlayOutput, notEstablished, Bool.and_false, Bool.or_false] at allowed
  simp only [overlayInput, related, Bool.and_true, Bool.or_eq_true]
  rw [reply_isIcmp wf, (Bool.and_eq_true_iff.mp allowed).1]
  simp

/-- What comes in as new is answered on the interface by which it came. -/
theorem outputVerdict_reply (wf : p.wellFormed = true) (new : p.ctState = CtState.new.bits)
    (accepted : h.inputVerdict on p = .accept) :
    h.outputVerdict on (p.reply icmpType icmpCode i o) = .accept := by
  unfold inputVerdict at accepted
  unfold outputVerdict
  split at accepted
  · rename_i lo
    simp [lo]
  · split at accepted
    · cases hf : p.family <;> rw [hf] at accepted <;> cases accepted
    · split at accepted
      · cases accepted
      · split at accepted
        · rename_i allowed
          have answered : (h.outside on && h.outsideOutput (p.reply icmpType icmpCode i o) ||
              h.overlay on && h.overlayOutput (p.reply icmpType icmpCode i o)) = true := by
            simp only [Bool.or_eq_true, Bool.and_eq_true] at allowed ⊢
            rcases allowed with ⟨there, allowed⟩ | ⟨there, allowed⟩
            · exact .inl ⟨there, outsideOutput_reply wf new allowed⟩
            · exact .inr ⟨there, overlayOutput_reply wf new allowed⟩
          rw [answered]
          simp
        · rw [accepted, ite_self]

/-- What goes out as new is answered on the interface by which it left, unless the answer comes from a
source that is refused there. -/
theorem inputVerdict_reply (wf : p.wellFormed = true) (new : p.ctState = CtState.new.bits)
    (accepted : h.outputVerdict on p = .accept)
    (source : on Compiler.loopbackInterface = true ∨
      p.destination.isLoopback = false ∧ h.holds .blacklist p.destination = false) :
    h.inputVerdict on (p.reply icmpType icmpCode i o) = .accept := by
  have sender : (p.reply icmpType icmpCode i o).source = p.destination := rfl
  unfold inputVerdict
  rw [sender]
  cases lo : on Compiler.loopbackInterface with
  | true => rfl
  | false =>
    obtain ⟨notLoopback, notListed⟩ := source.resolve_left (by rw [lo]; exact Bool.false_ne_true)
    rw [notLoopback, notListed]
    unfold outputVerdict at accepted
    rw [lo] at accepted
    simp only [Bool.false_eq_true, if_false]
    split at accepted
    · rename_i allowed
      have answered : (h.outside on && h.outsideInput (p.reply icmpType icmpCode i o) ||
          h.overlay on && h.overlayInput (p.reply icmpType icmpCode i o)) = true := by
        simp only [Bool.false_or, Bool.or_eq_true, Bool.and_eq_true] at allowed ⊢
        rcases allowed with ⟨there, allowed⟩ | ⟨there, allowed⟩
        · exact .inl ⟨there, outsideInput_reply wf new allowed⟩
        · exact .inr ⟨there, overlayInput_reply wf new allowed⟩
      rw [answered]
      rfl
    · rw [accepted, ite_self]

end Replies

end HostPolicy
end Firewall
