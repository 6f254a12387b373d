import Firewall.Proofs.HostPolicy
import Firewall.Proofs.Plan

namespace Firewall.Compiler

open Predicate Program

/-- The policy that a compiler compiles, for given contents of the address sets. -/
def policy (c : Compiler) (elements : AddressSet → List Element) : HostPolicy :=
  ⟨c.config, c.outsideInterface, elements⟩

/-- The chains of a layout hang in its tables and are named after their hooks. -/
structure Hooked (l : Layout) : Prop where
  input : l.input.table = l.filter ∧ l.input.name = Hook.input.name
  forward : l.forward.table = l.filter ∧ l.forward.name = Hook.forward.name
  output : l.output.table = l.filter ∧ l.output.name = Hook.output.name
  postrouting : l.postrouting.table = l.nat ∧ l.postrouting.name = Hook.postrouting.name

/-- The installed sets hold what the configuration lists and what the address sets contain. -/
structure Holds (members : Members) (c : Compiler) (elements : AddressSet → List Element) :
    Prop where
  trustedPorts : ∀ port, members c.layout.trustedPorts.name (portBytes port) =
    listed c.config.trustedPorts port
  managerPorts : ∀ port, members c.layout.managerPorts.name (portBytes port) =
    listed c.config.managerPorts port
  httpPorts : c.config.services.http = true → ∀ port,
    members c.layout.httpPorts.name (portBytes port) = httpPorts.contains port
  smtpPorts : c.config.services.smtp = true → ∀ port,
    members c.layout.smtpPorts.name (portBytes port) = smtpPorts.contains port
  addresses : ∀ which a, members (which.set c.layout).name a.bytes =
    (c.policy elements).holds which a

/-- A packet of the family meets the compiled rules, in tables whose sets hold what they should. -/
structure Meeting (members : Members) (c : Compiler) (elements : AddressSet → List Element)
    (p : Packet) : Prop where
  wellFormed : p.wellFormed = true
  family : c.layout.filter.family = p.family
  hooked : Hooked c.layout
  holds : Holds members c elements

namespace Meeting

variable {members : Members} {c : Compiler} {elements : AddressSet → List Element} {p : Packet}
  (s : Meeting members c elements p)
include s

theorem profile_eq : c.profile = p.family.profile := by
  rw [profile, s.family]

theorem icmp_part : PartTests members p (.ok (icmp c.profile)) p.isIcmp := by
  rw [s.profile_eq]
  exact .ok (protocol_tests s.wellFormed _)

theorem echoRequest_part : PartTests members p (.ok (echoRequest c.profile)) p.isEchoRequest := by
  rw [s.profile_eq]
  exact .ok (echoRequest_tests s.wellFormed)

theorem tcp_part : PartTests members p (.ok (tcp c.profile)) p.isTcp := by
  rw [s.profile_eq]
  exact .ok (protocol_tests s.wellFormed _)

theorem udp_part : PartTests members p (.ok (udp c.profile)) p.isUdp := by
  rw [s.profile_eq]
  exact .ok (protocol_tests s.wellFormed _)

theorem addressSet_part (which : AddressSet) (dir : Direction) :
    PartTests members p (addressSet c.profile dir (which.set c.layout) false defaultRegister)
      ((c.policy elements).holds which (p.address dir)) := by
  intro f h
  rw [s.profile_eq] at h
  have t : Tests members p _ _ := addressSet_tests s.wellFormed h
  rwa [Bool.bne_false, s.holds.addresses] at t

end Meeting

section Parts

variable {members : Members} {p : Packet}

theorem inputInterface_part (i : String) :
    PartTests members p (inputInterface i) (p.arrivesOn i) :=
  fun _ h => inputInterface_tests h

theorem outputInterface_part (i : String) :
    PartTests members p (outputInterface i) (p.leavesBy i) :=
  fun _ h => outputInterface_tests h

theorem state_part (states : CtState) : PartTests members p (inState states) (p.meets states) :=
  .ok (ctState_tests states defaultRegister)

def HasPorts (p : Packet) : Prop := p.protocol ≠ p.family.profile.icmpProtocol

theorem hasPorts_of_isTcp (h : p.isTcp = true) : HasPorts p := by
  have tcp : p.protocol = protocolTcp := eq_of_beq h
  unfold HasPorts
  rw [tcp]
  cases p.family <;> decide

theorem hasPorts_of_isUdp (h : p.isUdp = true) : HasPorts p := by
  have udp : p.protocol = protocolUdp := eq_of_beq h
  unfold HasPorts
  rw [udp]
  cases p.family <;> decide

theorem port_part (h : HasPorts p) (dir : Direction) (number : UInt16) :
    PartTests members p (.ok (port dir number false defaultRegister)) (p.port dir == number) := by
  have t : Tests members p _ _ := port_tests dir number false defaultRegister
  have e : (p.portField dir == portBytes number) = (p.port dir == number) := by
    rw [Bool.eq_iff_iff, beq_iff_eq, beq_iff_eq, Packet.portField_eq h]
    exact portBytes_inj
  rw [Bool.bne_false, e] at t
  exact .ok t

theorem portSet_part (h : HasPorts p) (dir : Direction) (set : MatchSet) :
    PartTests members p (portSet dir set false defaultRegister)
      (members set.name (portBytes (p.port dir))) := by
  intro f hf
  have t : Tests members p _ _ := portSet_tests hf
  rwa [Bool.bne_false, Packet.portField_eq h] at t

end Parts

namespace Hooked

variable {l : Layout} (k : Hooked l)
include k

theorem input_ne {hook : Hook} (h : .input ≠ hook) : l.input.name ≠ hook.name := by
  rw [k.input.2]
  revert h
  cases hook <;> decide

theorem output_ne {hook : Hook} (h : .output ≠ hook) : l.output.name ≠ hook.name := by
  rw [k.output.2]
  revert h
  cases hook <;> decide

/-- The rules of the forward chain are in no other. -/
theorem forward_ne {hook : Hook} (h : .forward ≠ hook) :
    ∀ chain ∈ [l.forward], chain.name ≠ hook.name := by
  intro chain hc
  rw [List.mem_singleton.mp hc, k.forward.2]
  revert h
  cases hook <;> decide

/-- The rules of the postrouting chain are in no other. -/
theorem postrouting_ne {hook : Hook} (h : .postrouting ≠ hook) :
    ∀ chain ∈ [l.postrouting], chain.name ≠ hook.name := by
  intro chain hc
  rw [List.mem_singleton.mp hc, k.postrouting.2]
  revert h
  cases hook <;> decide

/-- The rules for packets of the host itself are in no chain for packets on their way. -/
theorem host_ne {hook : Hook} (h : .input ≠ hook) (h' : .output ≠ hook) :
    ∀ chain ∈ [l.input, l.output], chain.name ≠ hook.name := by
  intro chain hc
  rcases List.mem_cons.mp hc with rfl | hc
  · exact k.input_ne h
  · rw [List.mem_singleton.mp hc]
    exact k.output_ne h'

end Hooked

section Groups

/-- The rules of an outside interface that stay after a cleanup are in the chains for packets of the host
itself. -/
theorem only_common (c : Compiler) (i : String) : Only [c.layout.input, c.layout.output] (c.common i) := by
  have input : ∀ id parts, For [c.layout.input, c.layout.output] (rule c.layout.input id parts) :=
    fun _ _ => rule_for (by simp)
  have output : ∀ id parts, For [c.layout.input, c.layout.output] (rule c.layout.output id parts) :=
    fun _ _ => rule_for (by simp)
  have hostBase : Only [c.layout.input, c.layout.output] (c.hostBase i) :=
    only_rules (by simp [input, output])
  have services : Only [c.layout.input, c.layout.output] (c.services i) := by
    unfold services
    dsimp only
    cases c.config.services.dns <;> cases c.config.services.http <;>
      cases c.config.services.smtp <;> exact only_rules (by simp [dnsOver, input, output])
  have trusted : Only [c.layout.input, c.layout.output] (c.trusted i) :=
    only_rules (by simp [input, output])
  exact only_groups (by simp [hostBase, services, trusted])

/-- The rules for packets of the host itself are in its own chains. -/
theorem only_hostRules (c : Compiler) :
    Only [c.layout.input, c.layout.output] c.loopback ∧
      Only [c.layout.input, c.layout.output] c.blacklist ∧
      (∀ i, Only [c.layout.input, c.layout.output] (c.interfaceRules i)) ∧
      Only [c.layout.input, c.layout.output] c.overlay := by
  have input : ∀ id parts,
      For [c.layout.input, c.layout.output] (rule c.layout.input id parts) :=
    fun _ _ => rule_for (by simp)
  have output : ∀ id parts,
      For [c.layout.input, c.layout.output] (rule c.layout.output id parts) :=
    fun _ _ => rule_for (by simp)
  refine ⟨only_rules (by simp [input, output]), only_rules (by simp [input]), ?_, ?_⟩
  · intro i
    have overlayPort : Only [c.layout.input, c.layout.output] (c.overlayPort i) := by
      unfold overlayPort
      dsimp only
      split
      · exact only_nil _
      · exact only_rules (by simp [input, output])
    exact only_groups (by simp [c.only_common i, overlayPort])
  · unfold overlay
    dsimp only
    split
    · exact only_nil _
    · exact only_rules (by simp [input, output])

/-- The policy is made of rules for packets of the host, of the forward chain and of source NAT. -/
theorem baseline_ok {c : Compiler} {plan : List PlannedRule} (h : c.baseline = .ok plan) :
    ∃ host forward nat, (∀ r ∈ host, r.chain ∈ [c.layout.input, c.layout.output]) ∧
      c.forward = .ok forward ∧ c.nat = .ok nat ∧ plan = host ++ forward ++ nat := by
  obtain ⟨loopback, blacklist, interfaceRules, overlay⟩ := c.only_hostRules
  obtain ⟨front, back, hfront, hback, rfl⟩ := groups_append_ok h
  obtain ⟨overlaid, rest, hoverlaid, hrest, rfl⟩ := groups_cons_ok hback
  obtain ⟨forward, last, hforward, hlast, rfl⟩ := groups_cons_ok hrest
  obtain ⟨nat, none, hnat, hnone, rfl⟩ := groups_cons_ok hlast
  cases hnone
  have outside : Only [c.layout.input, c.layout.output]
      (groups ([c.loopback, c.blacklist] ++ c.interfaces.map c.interfaceRules)) := by
    refine only_groups ?_
    intro g hg
    simp only [List.mem_append, List.mem_cons, List.not_mem_nil, or_false, List.mem_map] at hg
    rcases hg with (rfl | rfl) | ⟨i, -, rfl⟩
    · exact loopback
    · exact blacklist
    · exact interfaceRules i
  refine ⟨front ++ overlaid, forward, nat, ?_, hforward, hnat, by simp⟩
  intro r hr
  rcases List.mem_append.mp hr with first | second
  · exact outside front hfront r first
  · exact overlay overlaid hoverlaid r second

theorem only_forward (c : Compiler) : Only [c.layout.forward] c.forward := by
  have forward : ∀ id parts, For [c.layout.forward] (rule c.layout.forward id parts) :=
    fun _ _ => rule_for (by simp)
  unfold Compiler.forward
  dsimp only
  cases c.config.hasOverlay <;> exact only_rules (by simp [forward])

theorem only_nat (c : Compiler) : Only [c.layout.postrouting] c.nat :=
  only_rules (by
    intro r hr
    rw [List.mem_singleton.mp hr]
    exact rule_for (by simp))

/-- The interfaces that get rules: the outside one and those of the configuration, each once. -/
theorem mem_addNames {found names : List String} {i : String} :
    i ∈ addNames found names ↔ i ∈ found ∨ i ∈ names := by
  induction names generalizing found with
  | nil => simp [addNames]
  | cons n names ih =>
    unfold addNames
    rw [ih]
    split
    · rename_i known
      have member : n ∈ found := by simpa using known
      constructor
      · rintro (old | later)
        · exact .inl old
        · exact .inr (List.mem_cons_of_mem n later)
      · rintro (old | later)
        · exact .inl old
        · rcases List.mem_cons.mp later with rfl | later
          · exact .inl member
          · exact .inr later
    · simp [or_assoc]

theorem any_interfaces (c : Compiler) (elements : AddressSet → List Element) (on : String → Bool) :
    c.interfaces.any on = (c.policy elements).outside on := by
  rw [Bool.eq_iff_iff, HostPolicy.outside, List.any_eq_true, List.any_eq_true]
  constructor
  · rintro ⟨i, hi, hon⟩
    rcases mem_addNames.mp hi with first | other
    · exact ⟨i, List.mem_cons.mpr (.inl (List.mem_singleton.mp first)), hon⟩
    · exact ⟨i, List.mem_cons_of_mem _ other, hon⟩
  · rintro ⟨i, hi, hon⟩
    refine ⟨i, mem_addNames.mpr ?_, hon⟩
    rcases List.mem_cons.mp hi with first | other
    · exact .inl (List.mem_singleton.mpr first)
    · exact .inr other

/-- Whether one of the interfaces with rules meets a condition that is the same for all. -/
theorem any_interfaces_and (c : Compiler) (elements : AddressSet → List Element) (on : String → Bool)
    (b : Bool) : (c.interfaces.any fun i => on i && b) = ((c.policy elements).outside on && b) := by
  rw [← any_interfaces]
  cases b <;> simp

end Groups

namespace Meeting

variable {members : Members} {c : Compiler} {elements : AddressSet → List Element} {p : Packet}
  (s : Meeting members c elements p)
include s

/-- A rule for TCP that looks a port up in a set. -/
theorem tcpPorts_leads (dir : Direction) {set : MatchSet} {ports : UInt16 → Bool}
    (holds : ∀ port, members set.name (portBytes port) = ports port)
    {parts : List (Except Error Program)} {b : Bool} {o : Outcome} (rest : Leads members p parts b o) :
    Leads members p (.ok (tcp c.profile) :: portSet dir set false defaultRegister :: parts)
      (p.isTcp && (ports (p.port dir) && b)) o := by
  refine .cons s.tcp_part fun tcp => .cons ?_ fun _ => rest
  rw [← holds]
  exact portSet_part (hasPorts_of_isTcp tcp) dir set

/-- A rule for UDP that compares a port. -/
theorem udpPort_leads (dir : Direction) (number : UInt16) {parts : List (Except Error Program)}
    {b : Bool} {o : Outcome} (rest : Leads members p parts b o) :
    Leads members p (.ok (udp c.profile) :: .ok (port dir number false defaultRegister) :: parts)
      (p.isUdp && (p.port dir == number && b)) o :=
  .cons s.udp_part fun udp => .cons (port_part (hasPorts_of_isUdp udp) dir number) fun _ => rest

section Input

theorem loopback_input :
    GroupDecides members p c.layout.filter Hook.input.name c.loopback
      (if p.arrivesOn loopbackInterface then some .accept
        else if p.source.isLoopback then some (HostPolicy.unreachable p.family) else none) := by
  have own : Leads members p [inputInterface loopbackInterface, .ok accept]
      (p.arrivesOn loopbackInterface) (.verdict .accept) :=
    .last (inputInterface_part loopbackInterface) .accept
  have network : PartTests members p
      (sourceNetwork c.profile c.profile.family.loopbackNetwork) p.source.isLoopback := by
    intro f h
    rw [s.profile_eq, p.family.profile_family] at h
    have t : Tests members p _ _ := network_tests s.wellFormed h
    rw [Bool.bne_false] at t
    rwa [← Network.loopback_covers p.source]
  have spoof : Leads members p [notInputInterface loopbackInterface,
      sourceNetwork c.profile c.profile.family.loopbackNetwork, .ok (rejectPort c.profile)]
      (!p.arrivesOn loopbackInterface && p.source.isLoopback)
      (.verdict (HostPolicy.unreachable p.family)) := by
    have refusal : rejectPort c.profile = Predicate.verdict (HostPolicy.unreachable p.family) := by
      rw [s.profile_eq]
      cases p.family <;> rfl
    rw [refusal]
    exact .cons (fun _ h => notInputInterface_tests h) fun _ => .last network _
  refine .of_eq (rules_cons (rule_accepts s.wellFormed s.hooked.input own)
    (rules_cons (rule_here s.wellFormed s.hooked.input spoof ?_)
      (rules_cons (rule_elsewhere (s.hooked.output_ne (by decide))) rules_nil))) ?_
  · intro v e
    cases e
    cases p.family <;> rfl
  · cases p.arrivesOn loopbackInterface <;> cases p.source.isLoopback <;> rfl

theorem blacklist_input :
    GroupDecides members p c.layout.filter Hook.input.name c.blacklist
      (if (c.policy elements).holds .blacklist p.source then some .drop else none) := by
  have refused : Leads members p [sourceSet c.profile c.layout.blacklist, .ok drop]
      ((c.policy elements).holds .blacklist p.source) (.verdict .drop) :=
    .last (s.addressSet_part .blacklist .source) .drop
  exact .of_eq (rules_cons (rule_here s.wellFormed s.hooked.input refused) rules_nil) Option.or_none

theorem hostBase_input (i : String) :
    GroupDecides members p c.layout.filter Hook.input.name (c.hostBase i)
      (accepts (p.arrivesOn i && (p.isIcmp && p.meets .establishedRelated))) := by
  have messages : Leads members p
      [inputInterface i, .ok (icmp c.profile), inState .establishedRelated, .ok accept]
      (p.arrivesOn i && (p.isIcmp && p.meets .establishedRelated)) (.verdict .accept) :=
    .cons (inputInterface_part i) fun _ => .cons s.icmp_part fun _ => .last (state_part _) _
  exact .of_eq (rules_cons (rule_accepts s.wellFormed s.hooked.input messages)
    (rules_cons (rule_elsewhere (s.hooked.output_ne (by decide))) rules_nil)) Option.or_none

/-- Answers of name servers over one protocol. -/
theorem dnsOver_input (i word : String) {protocol : Program} {b : Bool}
    (tests : PartTests members p (.ok protocol) b) (ports : b = true → HasPorts p) :
    GroupDecides members p c.layout.filter Hook.input.name (rules (c.dnsOver i word protocol))
      (accepts (p.arrivesOn i && (b && (p.sourcePort == 53 && p.meets .establishedRelated)))) := by
  have answers : Leads members p [inputInterface i, .ok protocol, .ok (sourcePort dnsPort),
      inState .establishedRelated, .ok accept]
      (p.arrivesOn i && (b && (p.sourcePort == 53 && p.meets .establishedRelated)))
      (.verdict .accept) := by
    refine .cons (inputInterface_part i) fun _ => .cons tests fun hb => ?_
    exact .cons (port_part (ports hb) .source dnsPort) fun _ => .last (state_part _) _
  exact .of_eq (rules_cons (rule_elsewhere (s.hooked.output_ne (by decide)))
    (rules_cons (rule_accepts s.wellFormed s.hooked.input answers) rules_nil))
    (by rw [Option.none_or, Option.or_none])

theorem services_input (i : String) :
    GroupDecides members p c.layout.filter Hook.input.name (c.services i)
      (accepts (p.arrivesOn i &&
        (c.config.services.dns && (p.isUdp || p.isTcp) && p.sourcePort == 53 &&
          p.meets .establishedRelated ||
        c.config.services.http && p.isTcp && httpPorts.contains p.destinationPort &&
          p.meets .newEstablished ||
        c.config.services.smtp && p.isTcp && smtpPorts.contains p.sourcePort &&
          p.meets .established))) := by
  have requests : c.config.services.http = true → Leads members p
      [inputInterface i, .ok (tcp c.profile), destinationPortSet c.layout.httpPorts,
        inState .newEstablished, .ok accept]
      (p.arrivesOn i && (p.isTcp && (httpPorts.contains p.destinationPort &&
        p.meets .newEstablished))) (.verdict .accept) :=
    fun wanted => .cons (inputInterface_part i) fun _ =>
      s.tcpPorts_leads .destination (s.holds.httpPorts wanted) (.last (state_part _) _)
  have answers : c.config.services.smtp = true → Leads members p
      [inputInterface i, .ok (tcp c.profile), sourcePortSet c.layout.smtpPorts,
        inState .established, .ok accept]
      (p.arrivesOn i && (p.isTcp && (smtpPorts.contains p.sourcePort && p.meets .established)))
      (.verdict .accept) :=
    fun wanted => .cons (inputInterface_part i) fun _ =>
      s.tcpPorts_leads .source (s.holds.smtpPorts wanted) (.last (state_part _) _)
  have dns := rules_append (s.dnsOver_input i "udp" s.udp_part hasPorts_of_isUdp)
    (s.dnsOver_input i "tcp" s.tcp_part hasPorts_of_isTcp)
  rw [accepts_or] at dns
  refine .of_eq (rules_append (rules_append (rules_if fun _ => dns) (rules_if fun wanted =>
    .of_eq (rules_cons (rule_accepts s.wellFormed s.hooked.input (requests wanted))
      (rules_cons (rule_elsewhere (s.hooked.output_ne (by decide))) rules_nil)) Option.or_none))
    (rules_if fun wanted =>
    .of_eq (rules_cons (rule_elsewhere (s.hooked.output_ne (by decide)))
      (rules_cons (rule_accepts s.wellFormed s.hooked.input (answers wanted)) rules_nil))
      (by rw [Option.none_or, Option.or_none]))) ?_
  rw [accepts_or, accepts_or]
  cases p.arrivesOn i <;> simp [Bool.and_assoc, Bool.and_or_distrib_left, Bool.and_or_distrib_right]

theorem trusted_input (i : String) :
    GroupDecides members p c.layout.filter Hook.input.name (c.trusted i)
      (accepts (p.arrivesOn i &&
        (p.isEchoRequest && (c.policy elements).holds .trusted p.source && p.meets .new ||
        p.isTcp && listed c.config.trustedPorts p.destinationPort &&
          (c.policy elements).holds .trusted p.source && p.meets .newEstablished))) := by
  have ping : Leads members p [inputInterface i, .ok (echoRequest c.profile),
      sourceSet c.profile c.layout.trusted, inState .new, .ok accept]
      (p.arrivesOn i && (p.isEchoRequest && ((c.policy elements).holds .trusted p.source &&
        p.meets .new))) (.verdict .accept) :=
    .cons (inputInterface_part i) fun _ => .cons s.echoRequest_part fun _ =>
      .cons (s.addressSet_part .trusted .source) fun _ => .last (state_part _) _
  have requests : Leads members p [inputInterface i, .ok (tcp c.profile),
      destinationPortSet c.layout.trustedPorts, sourceSet c.profile c.layout.trusted,
      inState .newEstablished, .ok accept]
      (p.arrivesOn i && (p.isTcp && (listed c.config.trustedPorts p.destinationPort &&
        ((c.policy elements).holds .trusted p.source && p.meets .newEstablished))))
      (.verdict .accept) :=
    .cons (inputInterface_part i) fun _ =>
      s.tcpPorts_leads .destination s.holds.trustedPorts
        (.cons (s.addressSet_part .trusted .source) fun _ => .last (state_part _) _)
  refine .of_eq (rules_cons (rule_accepts s.wellFormed s.hooked.input ping)
    (rules_cons (rule_accepts s.wellFormed s.hooked.input requests)
      (rules_cons (rule_elsewhere (s.hooked.output_ne (by decide))) rules_nil))) ?_
  rw [Option.or_none, Option.or_none, accepts_or]
  cases p.arrivesOn i <;> simp [Bool.and_assoc]

theorem overlayPort_input (i : String) :
    GroupDecides members p c.layout.filter Hook.input.name (c.overlayPort i)
      (accepts (p.arrivesOn i && (c.config.overlayPort != 0 && p.isUdp &&
        p.destinationPort == c.config.overlayPort))) := by
  unfold overlayPort
  by_cases zero : c.config.overlayPort = 0
  · rw [if_pos zero, zero, bne_self_eq_false, Bool.false_and, Bool.false_and, Bool.and_false]
    exact rules_nil
  · have traffic : Leads members p [inputInterface i, .ok (udp c.profile),
        .ok (destinationPort c.config.overlayPort), .ok accept]
        (p.arrivesOn i && (p.isUdp && (p.destinationPort == c.config.overlayPort && true)))
        (.verdict .accept) :=
      .cons (inputInterface_part i) fun _ => s.udpPort_leads .destination _ (.verdict .accept)
    rw [if_neg zero]
    refine .of_eq (rules_cons (rule_accepts s.wellFormed s.hooked.input traffic)
      (rules_cons (rule_elsewhere (s.hooked.output_ne (by decide))) rules_nil)) ?_
    rw [Option.or_none, Option.or_none, Bool.and_true, bne_iff_ne.mpr zero, Bool.true_and]

/-- The rules of one outside interface that stay after a cleanup. -/
theorem common_input (i : String) :
    GroupDecides members p c.layout.filter Hook.input.name (c.common i)
      (accepts (p.arrivesOn i && (c.policy elements).accessInput p)) := by
  refine .of_eq (groups_cons (s.hostBase_input i) (groups_cons (s.services_input i)
    (groups_cons (s.trusted_input i) groups_nil))) ?_
  rw [Option.or_none, accepts_or, accepts_or]
  unfold HostPolicy.accessInput policy
  cases p.arrivesOn i <;> simp [Bool.or_assoc]

/-- The rules of one outside interface. -/
theorem interfaceRules_input (i : String) :
    GroupDecides members p c.layout.filter Hook.input.name (c.interfaceRules i)
      (accepts (p.arrivesOn i && (c.policy elements).outsideInput p)) := by
  refine .of_eq (groups_cons (s.common_input i) (groups_cons (s.overlayPort_input i) groups_nil)) ?_
  rw [Option.or_none, accepts_or, HostPolicy.outsideInput_eq, Bool.and_or_distrib_left]
  rfl

theorem overlay_input :
    GroupDecides members p c.layout.filter Hook.input.name c.overlay
      (accepts ((c.policy elements).overlay p.arrivesOn && (c.policy elements).overlayInput p)) := by
  unfold overlay
  dsimp only
  cases has : c.config.hasOverlay with
  | false =>
    refine .of_eq rules_nil ?_
    simp [HostPolicy.overlay, policy, has, accepts]
  | true =>
    have ping : Leads members p [inputInterface c.config.overlayInterface,
        .ok (echoRequest c.profile), inState .new, .ok accept]
        (p.arrivesOn c.config.overlayInterface && (p.isEchoRequest && p.meets .new))
        (.verdict .accept) :=
      .cons (inputInterface_part _) fun _ => .cons s.echoRequest_part fun _ => .last (state_part _) _
    have messages : Leads members p [inputInterface c.config.overlayInterface,
        .ok (icmp c.profile), inState .establishedRelated, .ok accept]
        (p.arrivesOn c.config.overlayInterface && (p.isIcmp && p.meets .establishedRelated))
        (.verdict .accept) :=
      .cons (inputInterface_part _) fun _ => .cons s.icmp_part fun _ => .last (state_part _) _
    have managers : Leads members p [inputInterface c.config.overlayInterface,
        .ok (tcp c.profile), destinationPortSet c.layout.managerPorts,
        sourceSet c.profile c.layout.manager, inState .newEstablished, .ok accept]
        (p.arrivesOn c.config.overlayInterface &&
          (p.isTcp && (listed c.config.managerPorts p.destinationPort &&
            ((c.policy elements).holds .manager p.source && p.meets .newEstablished))))
        (.verdict .accept) :=
      .cons (inputInterface_part _) fun _ =>
        s.tcpPorts_leads .destination s.holds.managerPorts
          (.cons (s.addressSet_part .manager .source) fun _ => .last (state_part _) _)
    have elsewhere : c.layout.output.name ≠ Hook.input.name := s.hooked.output_ne (by decide)
    refine .of_eq (rules_cons (rule_accepts s.wellFormed s.hooked.input ping)
      (rules_cons (rule_accepts s.wellFormed s.hooked.input messages)
        (rules_cons (rule_accepts s.wellFormed s.hooked.input managers)
          (rules_cons (rule_elsewhere elsewhere)
            (rules_cons (rule_elsewhere elsewhere) rules_nil))))) ?_
    rw [Option.or_none, Option.or_none, Option.or_none, accepts_or, accepts_or]
    unfold HostPolicy.overlay HostPolicy.overlayInput policy
    rw [has]
    cases p.arrivesOn c.config.overlayInterface <;> simp [Bool.or_assoc, Bool.and_assoc]

theorem baseline_input :
    ∃ v, GroupDecides members p c.layout.filter Hook.input.name c.baseline v ∧
      v.getD c.config.defaultPolicy.verdict =
        (c.policy elements).inputVerdict p.arrivesOn p := by
  have interfaces := groups_map s.interfaceRules_input c.interfaces
  have forward : GroupDecides members p c.layout.filter Hook.input.name c.forward none :=
    c.only_forward.decides_none (s.hooked.forward_ne (by decide))
  have nat : GroupDecides members p c.layout.filter Hook.input.name c.nat none :=
    c.only_nat.decides_none (s.hooked.postrouting_ne (by decide))
  have all := groups_append (groups_append
    (groups_cons s.loopback_input (groups_cons s.blacklist_input groups_nil)) interfaces)
    (groups_cons s.overlay_input (groups_cons forward (groups_cons nat groups_nil)))
  refine ⟨_, all, ?_⟩
  rw [any_interfaces_and c elements]
  unfold HostPolicy.inputVerdict
  cases p.arrivesOn loopbackInterface with
  | true => rfl
  | false =>
    cases p.source.isLoopback with
    | true => rfl
    | false =>
      cases (c.policy elements).holds .blacklist p.source with
      | true => rfl
      | false =>
        cases (c.policy elements).outside p.arrivesOn && (c.policy elements).outsideInput p <;>
          cases (c.policy elements).overlay p.arrivesOn && (c.policy elements).overlayInput p <;> rfl

end Input

section Output

theorem loopback_output :
    GroupDecides members p c.layout.filter Hook.output.name c.loopback
      (accepts (p.leavesBy loopbackInterface)) := by
  have elsewhere : c.layout.input.name ≠ Hook.output.name := s.hooked.input_ne (by decide)
  have own : Leads members p [outputInterface loopbackInterface, .ok accept]
      (p.leavesBy loopbackInterface) (.verdict .accept) :=
    .last (outputInterface_part loopbackInterface) .accept
  exact .of_eq (rules_cons (rule_elsewhere elsewhere) (rules_cons (rule_elsewhere elsewhere)
    (rules_cons (rule_accepts s.wellFormed s.hooked.output own) rules_nil)))
    (by rw [Option.none_or, Option.none_or, Option.or_none])

theorem blacklist_output :
    GroupDecides members p c.layout.filter Hook.output.name c.blacklist none :=
  rules_cons (rule_elsewhere (s.hooked.input_ne (by decide))) rules_nil

theorem hostBase_output (i : String) :
    GroupDecides members p c.layout.filter Hook.output.name (c.hostBase i)
      (accepts (p.leavesBy i && (p.isIcmp && p.meets .newEstablished))) := by
  have messages : Leads members p
      [outputInterface i, .ok (icmp c.profile), inState .newEstablished, .ok accept]
      (p.leavesBy i && (p.isIcmp && p.meets .newEstablished)) (.verdict .accept) :=
    .cons (outputInterface_part i) fun _ => .cons s.icmp_part fun _ => .last (state_part _) _
  exact .of_eq (rules_cons (rule_elsewhere (s.hooked.input_ne (by decide)))
    (rules_cons (rule_accepts s.wellFormed s.hooked.output messages) rules_nil))
    (by rw [Option.none_or, Option.or_none])

/-- Requests to name servers over one protocol. -/
theorem dnsOver_output (i word : String) {protocol : Program} {b : Bool}
    (tests : PartTests members p (.ok protocol) b) (ports : b = true → HasPorts p) :
    GroupDecides members p c.layout.filter Hook.output.name (rules (c.dnsOver i word protocol))
      (accepts (p.leavesBy i && (b && (p.destinationPort == 53 && p.meets .newEstablished)))) := by
  have requests : Leads members p [outputInterface i, .ok protocol, .ok (destinationPort dnsPort),
      inState .newEstablished, .ok accept]
      (p.leavesBy i && (b && (p.destinationPort == 53 && p.meets .newEstablished)))
      (.verdict .accept) := by
    refine .cons (outputInterface_part i) fun _ => .cons tests fun hb => ?_
    exact .cons (port_part (ports hb) .destination dnsPort) fun _ => .last (state_part _) _
  exact .of_eq (rules_cons (rule_accepts s.wellFormed s.hooked.output requests)
    (rules_cons (rule_elsewhere (s.hooked.input_ne (by decide))) rules_nil)) Option.or_none

theorem services_output (i : String) :
    GroupDecides members p c.layout.filter Hook.output.name (c.services i)
      (accepts (p.leavesBy i &&
        (c.config.services.dns && (p.isUdp || p.isTcp) && p.destinationPort == 53 &&
          p.meets .newEstablished ||
        c.config.services.http && p.isTcp && httpPorts.contains p.sourcePort &&
          p.meets .established ||
        c.config.services.smtp && p.isTcp && smtpPorts.contains p.destinationPort &&
          p.meets .newEstablished))) := by
  have answers : c.config.services.http = true → Leads members p
      [outputInterface i, .ok (tcp c.profile), sourcePortSet c.layout.httpPorts,
        inState .established, .ok accept]
      (p.leavesBy i && (p.isTcp && (httpPorts.contains p.sourcePort && p.meets .established)))
      (.verdict .accept) :=
    fun wanted => .cons (outputInterface_part i) fun _ =>
      s.tcpPorts_leads .source (s.holds.httpPorts wanted) (.last (state_part _) _)
  have requests : c.config.services.smtp = true → Leads members p
      [outputInterface i, .ok (tcp c.profile), destinationPortSet c.layout.smtpPorts,
        inState .newEstablished, .ok accept]
      (p.leavesBy i && (p.isTcp && (smtpPorts.contains p.destinationPort &&
        p.meets .newEstablished))) (.verdict .accept) :=
    fun wanted => .cons (outputInterface_part i) fun _ =>
      s.tcpPorts_leads .destination (s.holds.smtpPorts wanted) (.last (state_part _) _)
  have dns := rules_append (s.dnsOver_output i "udp" s.udp_part hasPorts_of_isUdp)
    (s.dnsOver_output i "tcp" s.tcp_part hasPorts_of_isTcp)
  rw [accepts_or] at dns
  refine .of_eq (rules_append (rules_append (rules_if fun _ => dns) (rules_if fun wanted =>
    .of_eq (rules_cons (rule_elsewhere (s.hooked.input_ne (by decide)))
      (rules_cons (rule_accepts s.wellFormed s.hooked.output (answers wanted)) rules_nil))
      (by rw [Option.none_or, Option.or_none])))
    (rules_if fun wanted =>
    .of_eq (rules_cons (rule_accepts s.wellFormed s.hooked.output (requests wanted))
      (rules_cons (rule_elsewhere (s.hooked.input_ne (by decide))) rules_nil)) Option.or_none)) ?_
  rw [accepts_or, accepts_or]
  cases p.leavesBy i <;> simp [Bool.and_assoc, Bool.and_or_distrib_left, Bool.and_or_distrib_right]

theorem trusted_output (i : String) :
    GroupDecides members p c.layout.filter Hook.output.name (c.trusted i)
      (accepts (p.leavesBy i && (p.isTcp && listed c.config.trustedPorts p.sourcePort &&
          (c.policy elements).holds .trusted p.destination && p.meets .established))) := by
  have elsewhere : c.layout.input.name ≠ Hook.output.name := s.hooked.input_ne (by decide)
  have answers : Leads members p [outputInterface i, .ok (tcp c.profile),
      sourcePortSet c.layout.trustedPorts, destinationSet c.profile c.layout.trusted,
      inState .established, .ok accept]
      (p.leavesBy i && (p.isTcp && (listed c.config.trustedPorts p.sourcePort &&
        ((c.policy elements).holds .trusted p.destination && p.meets .established))))
      (.verdict .accept) :=
    .cons (outputInterface_part i) fun _ =>
      s.tcpPorts_leads .source s.holds.trustedPorts
        (.cons (s.addressSet_part .trusted .destination) fun _ => .last (state_part _) _)
  refine .of_eq (rules_cons (rule_elsewhere elsewhere) (rules_cons (rule_elsewhere elsewhere)
    (rules_cons (rule_accepts s.wellFormed s.hooked.output answers) rules_nil))) ?_
  rw [Option.none_or, Option.none_or, Option.or_none, Bool.and_assoc, Bool.and_assoc]

theorem overlayPort_output (i : String) :
    GroupDecides members p c.layout.filter Hook.output.name (c.overlayPort i)
      (accepts (p.leavesBy i && (c.config.overlayPort != 0 && p.isUdp &&
        p.sourcePort == c.config.overlayPort))) := by
  unfold overlayPort
  by_cases zero : c.config.overlayPort = 0
  · rw [if_pos zero, zero, bne_self_eq_false, Bool.false_and, Bool.false_and, Bool.and_false]
    exact rules_nil
  · have traffic : Leads members p [outputInterface i, .ok (udp c.profile),
        .ok (sourcePort c.config.overlayPort), .ok accept]
        (p.leavesBy i && (p.isUdp && (p.sourcePort == c.config.overlayPort && true)))
        (.verdict .accept) :=
      .cons (outputInterface_part i) fun _ => s.udpPort_leads .source _ (.verdict .accept)
    rw [if_neg zero]
    refine .of_eq (rules_cons (rule_elsewhere (s.hooked.input_ne (by decide)))
      (rules_cons (rule_accepts s.wellFormed s.hooked.output traffic) rules_nil)) ?_
    rw [Option.none_or, Option.or_none, Bool.and_true, bne_iff_ne.mpr zero, Bool.true_and]

/-- The rules of one outside interface that stay after a cleanup. -/
theorem common_output (i : String) :
    GroupDecides members p c.layout.filter Hook.output.name (c.common i)
      (accepts (p.leavesBy i && (c.policy elements).accessOutput p)) := by
  refine .of_eq (groups_cons (s.hostBase_output i) (groups_cons (s.services_output i)
    (groups_cons (s.trusted_output i) groups_nil))) ?_
  rw [Option.or_none, accepts_or, accepts_or]
  unfold HostPolicy.accessOutput policy
  cases p.leavesBy i <;> simp [Bool.or_assoc]

/-- The rules of one outside interface. -/
theorem interfaceRules_output (i : String) :
    GroupDecides members p c.layout.filter Hook.output.name (c.interfaceRules i)
      (accepts (p.leavesBy i && (c.policy elements).outsideOutput p)) := by
  refine .of_eq (groups_cons (s.common_output i) (groups_cons (s.overlayPort_output i) groups_nil)) ?_
  rw [Option.or_none, accepts_or, HostPolicy.outsideOutput_eq, Bool.and_or_distrib_left]
  rfl

theorem overlay_output :
    GroupDecides members p c.layout.filter Hook.output.name c.overlay
      (accepts ((c.policy elements).overlay p.leavesBy && (c.policy elements).overlayOutput p)) := by
  unfold overlay
  dsimp only
  cases has : c.config.hasOverlay with
  | false =>
    refine .of_eq rules_nil ?_
    simp [HostPolicy.overlay, policy, has, accepts]
  | true =>
    have elsewhere : c.layout.input.name ≠ Hook.output.name := s.hooked.input_ne (by decide)
    have messages : Leads members p [outputInterface c.config.overlayInterface,
        .ok (icmp c.profile), inState .newEstablished, .ok accept]
        (p.leavesBy c.config.overlayInterface && (p.isIcmp && p.meets .newEstablished))
        (.verdict .accept) :=
      .cons (outputInterface_part _) fun _ => .cons s.icmp_part fun _ => .last (state_part _) _
    have managers : Leads members p [outputInterface c.config.overlayInterface,
        .ok (tcp c.profile), sourcePortSet c.layout.managerPorts,
        destinationSet c.profile c.layout.manager, inState .established, .ok accept]
        (p.leavesBy c.config.overlayInterface &&
          (p.isTcp && (listed c.config.managerPorts p.sourcePort &&
            ((c.policy elements).holds .manager p.destination && p.meets .established))))
        (.verdict .accept) :=
      .cons (outputInterface_part _) fun _ =>
        s.tcpPorts_leads .source s.holds.managerPorts
          (.cons (s.addressSet_part .manager .destination) fun _ => .last (state_part _) _)
    refine .of_eq (rules_cons (rule_elsewhere elsewhere) (rules_cons (rule_elsewhere elsewhere)
      (rules_cons (rule_elsewhere elsewhere)
        (rules_cons (rule_accepts s.wellFormed s.hooked.output messages)
          (rules_cons (rule_accepts s.wellFormed s.hooked.output managers) rules_nil))))) ?_
    rw [Option.none_or, Option.none_or, Option.none_or, Option.or_none, accepts_or]
    unfold HostPolicy.overlay HostPolicy.overlayOutput policy
    rw [has]
    cases p.leavesBy c.config.overlayInterface <;> simp [Bool.and_assoc]

theorem baseline_output :
    ∃ v, GroupDecides members p c.layout.filter Hook.output.name c.baseline v ∧
      v.getD c.config.defaultPolicy.verdict =
        (c.policy elements).outputVerdict p.leavesBy p := by
  have interfaces := groups_map s.interfaceRules_output c.interfaces
  have forward : GroupDecides members p c.layout.filter Hook.output.name c.forward none :=
    c.only_forward.decides_none (s.hooked.forward_ne (by decide))
  have nat : GroupDecides members p c.layout.filter Hook.output.name c.nat none :=
    c.only_nat.decides_none (s.hooked.postrouting_ne (by decide))
  have all := groups_append (groups_append
    (groups_cons s.loopback_output (groups_cons s.blacklist_output groups_nil)) interfaces)
    (groups_cons s.overlay_output (groups_cons forward (groups_cons nat groups_nil)))
  refine ⟨_, all, ?_⟩
  rw [any_interfaces_and c elements]
  unfold HostPolicy.outputVerdict
  cases p.leavesBy loopbackInterface <;>
    cases (c.policy elements).outside p.leavesBy && (c.policy elements).outsideOutput p <;>
      cases (c.policy elements).overlay p.leavesBy && (c.policy elements).overlayOutput p <;> rfl

end Output

section Forward

theorem forward_forward :
    GroupDecides members p c.layout.filter Hook.forward.name c.forward
      (if p.isTcp && p.destinationPort == 25 then some .drop
        else accepts (c.config.hasOverlay &&
          (c.policy elements).forwarded p p.arrivesOn p.leavesBy)) := by
  have relay : Leads members p [.ok (tcp c.profile), .ok (destinationPort smtpRelayPort), .ok drop]
      (p.isTcp && p.destinationPort == 25) (.verdict .drop) := by
    refine .cons s.tcp_part fun tcp => ?_
    exact .last (port_part (hasPorts_of_isTcp tcp) .destination smtpRelayPort) .drop
  have leaving : Leads members p [inputInterface c.config.overlayInterface,
      sourceSet c.profile c.layout.forwarded, outputInterface c.outsideInterface, .ok accept]
      (p.arrivesOn c.config.overlayInterface && ((c.policy elements).holds .forward p.source &&
        p.leavesBy c.outsideInterface)) (.verdict .accept) :=
    .cons (inputInterface_part _) fun _ => .cons (s.addressSet_part .forward .source) fun _ =>
      .last (outputInterface_part _) _
  have returning : Leads members p [inputInterface c.outsideInterface,
      destinationSet c.profile c.layout.forwarded, outputInterface c.config.overlayInterface,
      inState .establishedRelated, .ok accept]
      (p.arrivesOn c.outsideInterface && ((c.policy elements).holds .forward p.destination &&
        (p.leavesBy c.config.overlayInterface && p.meets .establishedRelated)))
      (.verdict .accept) :=
    .cons (inputInterface_part _) fun _ => .cons (s.addressSet_part .forward .destination) fun _ =>
      .cons (outputInterface_part _) fun _ => .last (state_part _) _
  have within : Leads members p [inputInterface c.config.overlayInterface,
      outputInterface c.config.overlayInterface, .ok accept]
      (p.arrivesOn c.config.overlayInterface && p.leavesBy c.config.overlayInterface)
      (.verdict .accept) :=
    .cons (inputInterface_part _) fun _ => .last (outputInterface_part _) _
  refine .of_eq (rules_cons (rule_here s.wellFormed s.hooked.forward relay)
    (rules_if fun _ => .of_eq (rules_cons (rule_accepts s.wellFormed s.hooked.forward leaving)
      (rules_cons (rule_accepts s.wellFormed s.hooked.forward returning)
        (rules_cons (rule_accepts s.wellFormed s.hooked.forward within) rules_nil)))
      (by rw [Option.or_none, accepts_or, accepts_or]))) ?_
  unfold HostPolicy.forwarded policy
  cases p.isTcp && p.destinationPort == 25
  · simp [Bool.and_assoc, Bool.or_assoc]
  · rfl

theorem baseline_forward :
    ∃ v, GroupDecides members p c.layout.filter Hook.forward.name c.baseline v ∧
      v.getD c.config.defaultPolicy.verdict =
        (c.policy elements).forwardVerdict p p.arrivesOn p.leavesBy := by
  refine ⟨if p.isTcp && p.destinationPort == 25 then some .drop else accepts (c.config.hasOverlay &&
    (c.policy elements).forwarded p p.arrivesOn p.leavesBy), ?_, ?_⟩
  · intro plan h
    obtain ⟨host, forward, nat, hostChains, hforward, hnat, rfl⟩ := baseline_ok h
    have before : rulesFor c.layout.filter Hook.forward.name host = [] :=
      rulesFor_only hostChains (s.hooked.host_ne (by decide) (by decide))
    have behind : rulesFor c.layout.filter Hook.forward.name nat = [] :=
      rulesFor_only (c.only_nat nat hnat) (s.hooked.postrouting_ne (by decide))
    have decides := s.forward_forward forward hforward
    have same : rulesFor c.layout.filter Hook.forward.name (host ++ forward ++ nat) =
        rulesFor c.layout.filter Hook.forward.name forward := by
      rw [rulesFor_append, rulesFor_append, before, behind, List.nil_append, List.append_nil]
    exact ⟨same ▸ decides.final, same ▸ decides.verdict⟩
  · have config : (c.policy elements).config = c.config := rfl
    unfold HostPolicy.forwardVerdict
    rw [config]
    cases p.isTcp && p.destinationPort == 25 <;>
      cases c.config.hasOverlay && (c.policy elements).forwarded p p.arrivesOn p.leavesBy <;> rfl

end Forward

section Postrouting

/-- Source NAT is the one rule behind the routing, and it looks at no set. -/
theorem baseline_postrouting {plan : List PlannedRule} (h : c.baseline = .ok plan) :
    ∃ rule, rulesFor c.layout.nat Hook.postrouting.name plan = [rule] ∧
      rule.id = some "wan-snat" ∧
      ∀ others, rule.decides? others p = accepts (p.leavesBy c.outsideInterface) := by
  obtain ⟨host, forward, nat, hostChains, hforward, hnat, rfl⟩ := baseline_ok h
  have before : rulesFor c.layout.nat Hook.postrouting.name host = [] :=
    rulesFor_only hostChains (s.hooked.host_ne (by decide) (by decide))
  have between : rulesFor c.layout.nat Hook.postrouting.name forward = [] :=
    rulesFor_only (c.only_forward forward hforward) (s.hooked.forward_ne (by decide))
  unfold Compiler.nat rules at hnat
  obtain ⟨planned, rest, hplanned, hrest, rfl⟩ := Spec.readAll_cons hnat
  cases hrest
  obtain ⟨programs, hp, rfl⟩ := rule_ok hplanned
  have translated : ∀ others, Leads others p [snat c.profile c.outsideAddress] true .nat := by
    intro others programs hp r
    obtain ⟨f, rest, hf, hrest, rfl⟩ := Spec.readAll_cons hp
    cases hrest
    unfold snat at hf
    split at hf
    · cases hf
      rfl
    · cases hf
  have leads : ∀ others, Leads others p
      [outputInterface c.outsideInterface, snat c.profile c.outsideAddress]
      (p.leavesBy c.outsideInterface && true) .nat :=
    fun others => .cons (outputInterface_part _) fun _ => translated others
  refine ⟨.named "wan-snat" programs.flatten, ?_, rfl, ?_⟩
  · rw [rulesFor_append, rulesFor_append, before, between]
    simp [rulesFor, s.hooked.postrouting]
  · intro others
    have outcome := leads others programs hp .empty
    unfold RuleData.decides? Program.evaluate
    rw [s.wellFormed, if_pos rfl]
    show (Program.run others p .empty programs.flatten).verdict? = _
    rw [outcome, Bool.and_true]
    cases p.leavesBy c.outsideInterface <;> rfl

end Postrouting

end Meeting

end Firewall.Compiler
