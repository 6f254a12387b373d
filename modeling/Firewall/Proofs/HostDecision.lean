import Firewall.Proofs.Baseline
import Firewall.Proofs.Changes
import Firewall.Proofs.Ports
import Firewall.Proofs.Validity

namespace Firewall

theorem ok_of_toOption {ε α : Type} {r : Except ε α} {a : α} (h : r.toOption = some a) :
    r = .ok a := by
  cases r with
  | ok b => exact congrArg Except.ok (Option.some.inj h)
  | error e => cases h

/-- An action that has succeeded, with the state that it has left. -/
theorem Action.succeeded {σ : Type} {a : Action σ Unit} {s : σ} (h : (a s).1.toOption = some ()) :
    a s = (.ok (), (a s).2) :=
  Prod.ext (ok_of_toOption h) rfl

/-- The elements of single ports hold these ports. -/
theorem singlePorts_contains (ports : List UInt16) (port : UInt16) :
    (ports.map fun n => Element.single (portBytes n)).any (·.contains (portBytes port)) =
      ports.contains port := by
  induction ports with
  | nil => rfl
  | cons n ports ih =>
    have same : (Element.single (portBytes n)).contains (portBytes port) = (port == n) := by
      rw [Bool.eq_iff_iff, beq_iff_eq]
      exact beq_iff_eq.trans (portBytes_inj.trans eq_comm)
    rw [List.map_cons, List.any_cons, List.contains_cons, ih, same]

theorem httpSpecs_elements : Spec.elements .inetService false Layout.httpSpecs =
    .ok (httpPorts.map fun n => .single (portBytes n)) := by decide +kernel

theorem smtpSpecs_elements : Spec.elements .inetService false Layout.smtpSpecs =
    .ok (smtpPorts.map fun n => .single (portBytes n)) := by decide +kernel

namespace Layout.Spells

variable {c : Config} {ports : PortElements} (spells : Spells c ports)
include spells

theorem trusted_contains (valid : c.Valid) (port : UInt16) :
    ports.trusted.any (·.contains (portBytes port)) = listed c.trustedPorts port :=
  elements_listed valid.trustedPorts spells.trusted port

theorem manager_contains (valid : c.Valid) (port : UInt16) :
    ports.manager.any (·.contains (portBytes port)) = listed c.managerPorts port :=
  elements_listed valid.managerPorts spells.manager port

theorem http_contains (wanted : c.services.http = true) (port : UInt16) :
    ports.http.any (·.contains (portBytes port)) = Firewall.httpPorts.contains port := by
  have read := spells.http wanted
  rw [httpSpecs_elements] at read
  rw [← Except.ok.inj read]
  exact singlePorts_contains Firewall.httpPorts port

theorem smtp_contains (wanted : c.services.smtp = true) (port : UInt16) :
    ports.smtp.any (·.contains (portBytes port)) = Firewall.smtpPorts.contains port := by
  have read := spells.smtp wanted
  rw [smtpSpecs_elements] at read
  rw [← Except.ok.inj read]
  exact singlePorts_contains Firewall.smtpPorts port

end Layout.Spells

/-- The chains of a numbered layout hang in its tables. -/
theorem Layout.numbered_hooked (c : Config) : Compiler.Hooked (numbered c) :=
  ⟨⟨rfl, rfl⟩, ⟨rfl, rfl⟩, ⟨rfl, rfl⟩, ⟨rfl, rfl⟩⟩

theorem Ruleset.members_set {r : Ruleset} {set : MatchSet} {elements : List Element}
    (h : r.set? set.table set.name = some ⟨set, elements⟩) (key : List UInt8) :
    r.members set.table set.name key = elements.any (·.contains key) := by
  rw [members, h]
  rfl

theorem Ruleset.members_none {r : Ruleset} {t : Table} {name : String} (h : r.set? t name = none)
    (key : List UInt8) : r.members t name key = false := by
  rw [members, h]
  rfl

theorem Kernel.elements_ok {k : Kernel} {set : MatchSet} {s : InstalledSet}
    (h : k.ruleset.set? set.table set.name = some s) : k.elements set = .ok s.elements := by
  unfold elements
  rw [h]

namespace Ruleset

variable {r : Ruleset} {rules : List RuleData} {plan : List PlannedRule} {p : Packet}

/-- What a chain with planned rules decides: by the first of them that matches. -/
theorem planned_decides {chain : Chain} (found : r.chain? chain.table chain.name = some ⟨chain, rules⟩)
    (bare : rules.map RuleData.bare =
      (Compiler.rulesFor chain.table chain.name plan).map RuleData.bare)
    (wf : p.wellFormed = true)
    (final : ∀ q ∈ Compiler.rulesFor chain.table chain.name plan, ∀ v,
      q.decides? (r.members chain.table) p = some v → v.isFinal = true) :
    ∃ d, r.decidePacket chain.table chain.name p = .ok d ∧
      d.verdict = ((Compiler.rulesFor chain.table chain.name plan).findSome?
        (RuleData.decides? (r.members chain.table) p)).getD (chain.policy?.getD .accept).verdict ∧
      d.id = (RuleData.first? (r.members chain.table) p
        (Compiler.rulesFor chain.table chain.name plan)).bind (·.id) := by
  have final' : ∀ q ∈ rules, ∀ v, q.decides? (r.members chain.table) p = some v → v.isFinal = true := by
    intro q member v decided
    have kept : q.bare ∈ (Compiler.rulesFor chain.table chain.name plan).map RuleData.bare :=
      bare ▸ List.mem_map_of_mem member
    obtain ⟨q', member', same⟩ := List.mem_map.mp kept
    have program : q'.program = q.program := congrArg (·.program) same
    apply final q' member' v
    rw [RuleData.decides?, program]
    exact decided
  obtain ⟨d, decision, verdict, id⟩ := Ruleset.decidePacket_first wf found final'
  refine ⟨d, decision, ?_, ?_⟩
  · rw [verdict, bare, List.findSome?_map]
    rfl
  · rw [id, bare, RuleData.first?_bare, Option.bind_map]
    rfl

end Ruleset

namespace Controller

variable {c₀ c : Controller Kernel}

def policy (c : Controller Kernel) (elements : AddressSet → List Element) : HostPolicy :=
  ⟨c.config, c.outsideInterface, elements⟩

/-- The contents of the address sets. -/
def Contains (c : Controller Kernel) (elements : AddressSet → List Element) : Prop :=
  ∀ which : AddressSet, c.sink.elements (which.set c.layout) = .ok (elements which)

namespace Installed

variable (installed : Installed c₀ c)
include installed

theorem layout_eq : c.layout = Layout.numbered c₀.config := by rw [installed.state]

/-- The address sets of an installed policy can be read. -/
theorem contains : ∃ elements, c.Contains elements := by
  have held : ∀ which : AddressSet, ∃ elements,
      c.sink.elements (which.set c.layout) = .ok elements := by
    intro which
    obtain ⟨elements, found⟩ := installed.carries.addresses which
    refine ⟨elements, ?_⟩
    rw [installed.layout_eq]
    exact Kernel.elements_ok found
  exact ⟨fun which => (held which).choose, fun which => (held which).choose_spec⟩

/-- The sets of an installed policy hold what the policy takes them to hold. -/
theorem holds (configured : c₀.Configured) {elements : AddressSet → List Element}
    (contents : c.Contains elements) :
    Compiler.Holds (c.sink.ruleset.members c₀.config.filterTable)
      (c₀.compiler (Layout.numbered c₀.config)) elements := by
  have valid := Config.validate_ok configured.valid
  obtain ⟨ports, spells, listed⟩ := installed.carries.ports
  have held : ∀ {set es}, (set, es) ∈ (Layout.numbered c₀.config).portSets c₀.config ports →
      set.table = c₀.config.filterTable → ∀ key,
        c.sink.ruleset.members c₀.config.filterTable set.name key = es.any (·.contains key) := by
    intro set es member table key
    rw [← table, Ruleset.members_set (listed (set, es) member), addElements_contains, List.any_nil,
      Bool.false_or]
  constructor
  · intro port
    have member : ((Layout.numbered c₀.config).trustedPorts, ports.trusted) ∈
        (Layout.numbered c₀.config).portSets c₀.config ports := by simp [Layout.portSets]
    exact (held member rfl _).trans (spells.trusted_contains valid port)
  · intro port
    have member : ((Layout.numbered c₀.config).managerPorts, ports.manager) ∈
        (Layout.numbered c₀.config).portSets c₀.config ports := by simp [Layout.portSets]
    exact (held member rfl _).trans (spells.manager_contains valid port)
  · intro wanted port
    have member : ((Layout.numbered c₀.config).httpPorts, ports.http) ∈
        (Layout.numbered c₀.config).portSets c₀.config ports := by
      simp [Layout.portSets, show c₀.config.services.http = true from wanted]
    have table : (Layout.numbered c₀.config).httpPorts.table = c₀.config.filterTable :=
      (Prod.ext_iff.mp (Layout.numbered_httpPorts wanted)).1
    exact (held member table _).trans (spells.http_contains wanted port)
  · intro wanted port
    have member : ((Layout.numbered c₀.config).smtpPorts, ports.smtp) ∈
        (Layout.numbered c₀.config).portSets c₀.config ports := by
      simp [Layout.portSets, show c₀.config.services.smtp = true from wanted]
    have table : (Layout.numbered c₀.config).smtpPorts.table = c₀.config.filterTable :=
      (Prod.ext_iff.mp (Layout.numbered_smtpPorts wanted)).1
    exact (held member table _).trans (spells.smtp_contains wanted port)
  · intro which a
    obtain ⟨es, found⟩ := installed.carries.addresses which
    have read := contents which
    rw [installed.layout_eq] at read
    have same : es = elements which := Except.ok.inj ((Kernel.elements_ok found).symm.trans read)
    have table : (which.set (Layout.numbered c₀.config)).table = c₀.config.filterTable :=
      (Prod.ext_iff.mp (Layout.numbered_address which)).1
    have members := Ruleset.members_set found a.bytes
    rw [same] at members
    rw [← table]
    exact members

/-- A packet of the family meets the rules of an installed policy. -/
theorem meeting (configured : c₀.Configured) {elements : AddressSet → List Element}
    (contents : c.Contains elements) {p : Packet} (source : p.source.family = c₀.config.family)
    (destination : p.destination.family = c₀.config.family) :
    Compiler.Meeting (c.sink.ruleset.members c₀.config.filterTable)
      (c₀.compiler (Layout.numbered c₀.config)) elements p where
  wellFormed := beq_iff_eq.mpr (destination.trans source.symm)
  family := source.symm
  hooked := Layout.numbered_hooked c₀.config
  holds := installed.holds configured contents

/-- What a chain of an installed policy decides: by the first of its planned rules that matches. -/
theorem decides {chain : Chain} (h : chain ∈ (Layout.numbered c₀.config).chains) :
    ∃ plan, (c₀.compiler (Layout.numbered c₀.config)).baseline = .ok plan ∧
      ∀ p : Packet, p.wellFormed = true →
        (∀ r ∈ Compiler.rulesFor chain.table chain.name plan, ∀ v,
          r.decides? (c.sink.ruleset.members chain.table) p = some v → v.isFinal = true) →
        ∃ d, c.sink.ruleset.decidePacket chain.table chain.name p = .ok d ∧
          d.verdict = ((Compiler.rulesFor chain.table chain.name plan).findSome?
            (RuleData.decides? (c.sink.ruleset.members chain.table) p)).getD
              (chain.policy?.getD .accept).verdict ∧
          d.id = (RuleData.first? (c.sink.ruleset.members chain.table) p
            (Compiler.rulesFor chain.table chain.name plan)).bind (·.id) := by
  obtain ⟨plan, planned, chains⟩ := installed.carries.chains
  obtain ⟨rules, found, bare⟩ := chains chain h
  exact ⟨plan, planned, fun p wf final => Ruleset.planned_decides found bare wf final⟩

/-- A chain of the filter table decides what its planned rules decide together. -/
theorem filter_decides {hook : Hook} {p : Packet} {v : Option Verdict} (wf : p.wellFormed = true)
    (h : Chain.filter c₀.config.filterTable hook c₀.config.defaultPolicy ∈
      (Layout.numbered c₀.config).chains)
    (group : Compiler.GroupDecides (c.sink.ruleset.members c₀.config.filterTable) p
      c₀.config.filterTable hook.name (c₀.compiler (Layout.numbered c₀.config)).baseline v) :
    ∃ d, c.sink.ruleset.decidePacket c₀.config.filterTable hook.name p = .ok d ∧
      d.verdict = v.getD c₀.config.defaultPolicy.verdict := by
  obtain ⟨plan, planned, decides⟩ := installed.decides h
  obtain ⟨final, first⟩ := group plan planned
  obtain ⟨d, decision, verdict, -⟩ := decides p wf final
  exact ⟨d, decision, by rw [verdict, ← first]; rfl⟩

section Verdicts

variable (configured : c₀.Configured) {elements : AddressSet → List Element}
  (contents : c.Contains elements) {p : Packet} (source : p.source.family = c₀.config.family)
  (destination : p.destination.family = c₀.config.family)
include configured contents source destination

theorem input : ∃ d, c.sink.ruleset.decidePacket c₀.config.filterTable Hook.input.name p = .ok d ∧
    d.verdict = (c₀.policy elements).inputVerdict p.arrivesOn p := by
  have meeting := installed.meeting configured contents source destination
  obtain ⟨v, group, verdict⟩ := meeting.baseline_input
  rw [← show _ = (c₀.policy elements).inputVerdict p.arrivesOn p from verdict]
  exact installed.filter_decides meeting.wellFormed List.mem_cons_self group

theorem output : ∃ d, c.sink.ruleset.decidePacket c₀.config.filterTable Hook.output.name p = .ok d ∧
    d.verdict = (c₀.policy elements).outputVerdict p.leavesBy p := by
  have meeting := installed.meeting configured contents source destination
  obtain ⟨v, group, verdict⟩ := meeting.baseline_output
  rw [← show _ = (c₀.policy elements).outputVerdict p.leavesBy p from verdict]
  exact installed.filter_decides meeting.wellFormed (.tail _ (.tail _ (.head _))) group

/-- The policy accepts what is accepted for the host. -/
theorem input_accepts (accepted : ∃ d, c.sink.ruleset.decidePacket c₀.config.filterTable
    Hook.input.name p = .ok d ∧ d.verdict = .accept) :
    (c₀.policy elements).inputVerdict p.arrivesOn p = .accept := by
  obtain ⟨d, decision, accept⟩ := accepted
  obtain ⟨d', decision', verdict⟩ := installed.input configured contents source destination
  have same : d = d' := Except.ok.inj (decision.symm.trans decision')
  rw [← verdict, ← same, accept]

theorem output_accepts (accepted : ∃ d, c.sink.ruleset.decidePacket c₀.config.filterTable
    Hook.output.name p = .ok d ∧ d.verdict = .accept) :
    (c₀.policy elements).outputVerdict p.leavesBy p = .accept := by
  obtain ⟨d, decision, accept⟩ := accepted
  obtain ⟨d', decision', verdict⟩ := installed.output configured contents source destination
  have same : d = d' := Except.ok.inj (decision.symm.trans decision')
  rw [← verdict, ← same, accept]

theorem forward :
    ∃ d, c.sink.ruleset.decidePacket c₀.config.filterTable Hook.forward.name p = .ok d ∧
      d.verdict = (c₀.policy elements).forwardVerdict p p.arrivesOn p.leavesBy := by
  have meeting := installed.meeting configured contents source destination
  obtain ⟨v, group, verdict⟩ := meeting.baseline_forward
  rw [← show _ = (c₀.policy elements).forwardVerdict p p.arrivesOn p.leavesBy from verdict]
  exact installed.filter_decides meeting.wellFormed (.tail _ (.head _)) group

/-- Behind the routing every packet passes; its source is translated on the outside interface. -/
theorem postrouting :
    ∃ d, c.sink.ruleset.decidePacket c₀.config.natTable Hook.postrouting.name p = .ok d ∧
      d.verdict = .accept ∧ d.id = (c₀.policy elements).translation p.leavesBy := by
  have meeting := installed.meeting configured contents source destination
  have chain : (Layout.numbered c₀.config).postrouting ∈ (Layout.numbered c₀.config).chains := by
    simp [Layout.chains]
  obtain ⟨plan, planned, decides⟩ := installed.decides chain
  obtain ⟨rule, alone, named, translates⟩ := meeting.baseline_postrouting planned
  have alone' : Compiler.rulesFor (Layout.numbered c₀.config).postrouting.table
      (Layout.numbered c₀.config).postrouting.name plan = [rule] := alone
  have decided : rule.decides? (c.sink.ruleset.members (Layout.numbered c₀.config).postrouting.table) p =
      Compiler.accepts (p.leavesBy c₀.outsideInterface) := translates _
  rw [alone'] at decides
  obtain ⟨d, decision, verdict, id⟩ := decides p meeting.wellFormed (by
    intro r member v h
    rw [List.mem_singleton.mp member, decided] at h
    unfold Compiler.accepts at h
    split at h
    · cases h
      rfl
    · cases h)
  refine ⟨d, decision, ?_, ?_⟩
  · rw [verdict, List.findSome?_cons, decided]
    cases p.leavesBy c₀.outsideInterface <;> rfl
  · rw [id, RuleData.first?, List.find?_cons, decided]
    show _ = if p.leavesBy c₀.outsideInterface then some "wan-snat" else none
    cases p.leavesBy c₀.outsideInterface with
    | true => exact named
    | false => rfl

end Verdicts

end Installed

/-- A gateway with an overlay that offers and uses every service. -/
def gateway : Controller Kernel :=
  let config : Config := { Config.default with
    overlayInterface := "wg0", overlayPort := 51820, interfaces := ["eth1"]
    managerPorts := ["8443"], services := ⟨true, true, true⟩ }
  let outside : Address := .v4 0xCB007107
  ⟨config, .ofOutside "eth0" outside, "eth0", outside, .ofConfig config, .ofConfig config, false,
    .empty⟩

theorem gateway_configured : gateway.Configured := ⟨by decide +kernel, rfl⟩

theorem gateway_startedOn (k : Kernel) :
    start gateway.config k gateway.host = .ok { gateway with sink := k } := by
  unfold start
  rw [gateway_configured.valid]
  rfl

theorem gateway_started : start gateway.config .empty gateway.host = .ok gateway :=
  gateway_startedOn .empty

theorem gateway_applied : apply gateway = (.ok (), (apply gateway).2) :=
  Action.succeeded (by decide +kernel)

def shell : Packet :=
  ⟨some "eth0", none, protocolTcp, .v4 0xC6336407, .v4 0xCB007107, 40000, 22, 0, 0,
    CtState.new.bits⟩

def relayed : Packet :=
  ⟨some "wg0", some "eth0", protocolTcp, .v4 0x0A000001, .v4 0xC6336407, 40000, 443, 0, 0,
    CtState.new.bits⟩

section Applied

variable {c₁ : Controller Kernel}

/-- The policy names interfaces that a kernel can have, if the outside interface is one. -/
theorem names_named (configured : c₀.Configured) (outside : IsInterfaceName c₀.outsideInterface)
    (elements : AddressSet → List Element) : ∀ i ∈ (c₀.policy elements).names, IsInterfaceName i := by
  have valid := Config.validate_ok configured.valid
  intro i member
  rcases List.mem_append.mp member with listed | overlay
  · rcases List.mem_cons.mp listed with rfl | listed
    · decide
    · rcases List.mem_cons.mp listed with rfl | listed
      · exact outside
      · exact valid.interfaces i listed
  · split at overlay
    · rename_i has
      rw [List.mem_singleton.mp overlay]
      exact valid.overlayInterface has
    · exact absurd overlay List.not_mem_nil

/-- What a field tells of the interfaces that the policy names is whether it holds their names. -/
theorem named_field (configured : c₀.Configured) (outside : IsInterfaceName c₀.outsideInterface)
    (elements : AddressSet → List Element) {field : Option String}
    (field_named : ∀ name, field = some name → IsInterfaceName name) :
    ∀ i ∈ (c₀.policy elements).names, Packet.fieldNamed field i = (field == some i) := by
  intro i member
  exact Packet.fieldNamed_eq field_named (names_named configured outside elements i member)

/-- Once the policy is applied, every packet for the host gets the verdict of the policy, whatever happens
to the address sets. -/
theorem input_decides_policy (configured : c₀.Configured) (enabled : c₀.config.enabled = true)
    (applied : apply c₀ = (.ok (), c₁)) (changes : List Change)
    (outside : IsInterfaceName c₀.outsideInterface) :
    ∃ elements, (Change.runAll changes c₁).Contains elements ∧
      ∀ p : Packet, p.source.family = c₀.config.family → p.destination.family = c₀.config.family →
        (∀ name, p.inputInterface = some name → IsInterfaceName name) →
        ∃ d, (Change.runAll changes c₁).sink.ruleset.decidePacket c₀.config.filterTable
            Hook.input.name p = .ok d ∧
          d.verdict = (c₀.policy elements).inputVerdict (fun i => p.inputInterface == some i) p := by
  have installed := Change.runAll_installed changes (apply_installed configured enabled applied)
  obtain ⟨elements, contents⟩ := installed.contains
  refine ⟨elements, contents, ?_⟩
  intro p source destination arrives
  obtain ⟨d, decision, verdict⟩ := installed.input configured contents source destination
  have names := named_field configured outside elements arrives
  exact ⟨d, decision, verdict.trans (HostPolicy.inputVerdict_congr names)⟩

/-- A trusted source reaches the gateway from outside. -/
theorem input_decides_gateway :
    ∃ elements, (Change.runAll [.update .trusted [] ["198.51.100.7"]] (apply gateway).2).Contains
        elements ∧
      ∃ d, (Change.runAll [.update .trusted [] ["198.51.100.7"]]
          (apply gateway).2).sink.ruleset.decidePacket gateway.config.filterTable Hook.input.name
          shell = .ok d ∧
        d.verdict = (gateway.policy elements).inputVerdict (fun i => some "eth0" == some i) shell := by
  obtain ⟨elements, contents, decides⟩ := input_decides_policy gateway_configured rfl
    gateway_applied [.update .trusted [] ["198.51.100.7"]] (by decide)
  refine ⟨elements, contents, decides shell rfl rfl ?_⟩
  intro name named
  cases named
  decide

/-- So does every packet that the host sends or forwards, and the source of what leaves by the outside
interface is translated. -/
theorem output_forward_decide_policy (configured : c₀.Configured)
    (enabled : c₀.config.enabled = true) (applied : apply c₀ = (.ok (), c₁)) (changes : List Change)
    (outside : IsInterfaceName c₀.outsideInterface) :
    ∃ elements, (Change.runAll changes c₁).Contains elements ∧
      ∀ p : Packet, p.source.family = c₀.config.family → p.destination.family = c₀.config.family →
        (∀ name, p.inputInterface = some name → IsInterfaceName name) →
        (∀ name, p.outputInterface = some name → IsInterfaceName name) →
        (∃ d, (Change.runAll changes c₁).sink.ruleset.decidePacket c₀.config.filterTable
            Hook.output.name p = .ok d ∧
          d.verdict = (c₀.policy elements).outputVerdict (fun i => p.outputInterface == some i) p) ∧
        (∃ d, (Change.runAll changes c₁).sink.ruleset.decidePacket c₀.config.filterTable
            Hook.forward.name p = .ok d ∧
          d.verdict = (c₀.policy elements).forwardVerdict p (fun i => p.inputInterface == some i)
            (fun i => p.outputInterface == some i)) ∧
        ∃ d, (Change.runAll changes c₁).sink.ruleset.decidePacket c₀.config.natTable
            Hook.postrouting.name p = .ok d ∧
          d.verdict = .accept ∧
          d.id = (c₀.policy elements).translation fun i => p.outputInterface == some i := by
  have installed := Change.runAll_installed changes (apply_installed configured enabled applied)
  obtain ⟨elements, contents⟩ := installed.contains
  refine ⟨elements, contents, ?_⟩
  intro p source destination arrives leaves
  have incoming := named_field configured outside elements arrives
  have outgoing := named_field configured outside elements leaves
  refine ⟨?_, ?_, ?_⟩
  · obtain ⟨d, decision, verdict⟩ := installed.output configured contents source destination
    exact ⟨d, decision, verdict.trans (HostPolicy.outputVerdict_congr outgoing)⟩
  · obtain ⟨d, decision, verdict⟩ := installed.forward configured contents source destination
    exact ⟨d, decision, verdict.trans (HostPolicy.forwardVerdict_congr incoming outgoing)⟩
  · obtain ⟨d, decision, verdict, id⟩ :=
      installed.postrouting configured contents source destination
    have there : p.leavesBy c₀.outsideInterface = (p.outputInterface == some c₀.outsideInterface) :=
      outgoing _ (by simp [HostPolicy.names, policy])
    refine ⟨d, decision, verdict, id.trans ?_⟩
    show (if p.leavesBy c₀.outsideInterface then some "wan-snat" else none) = _
    rw [there]
    rfl

/-- A packet of the overlay leaves the gateway outside. -/
theorem output_forward_decide_gateway :
    ∃ elements, (Change.runAll [.update .forward [] ["10.0.0.0/8"]] (apply gateway).2).Contains
        elements ∧
      ∃ d, (Change.runAll [.update .forward [] ["10.0.0.0/8"]]
          (apply gateway).2).sink.ruleset.decidePacket gateway.config.filterTable Hook.forward.name
          relayed = .ok d ∧
        d.verdict = (gateway.policy elements).forwardVerdict relayed (fun i => some "wg0" == some i)
          (fun i => some "eth0" == some i) := by
  obtain ⟨elements, contents, decides⟩ := output_forward_decide_policy gateway_configured rfl
    gateway_applied [.update .forward [] ["10.0.0.0/8"]] (by decide)
  refine ⟨elements, contents, (decides relayed rfl rfl ?_ ?_).2.1⟩
  · intro name named
    cases named
    decide
  · intro name named
    cases named
    decide

/-- What may pass the host as new in one direction may be answered in the other, unless the answer comes
from a source that is refused. -/
theorem replies_accepted (configured : c₀.Configured) (enabled : c₀.config.enabled = true)
    (applied : apply c₀ = (.ok (), c₁)) (changes : List Change)
    (i : String) :
    ∃ elements, (Change.runAll changes c₁).Contains elements ∧
      ∀ p : Packet, p.source.family = c₀.config.family → p.destination.family = c₀.config.family →
        p.ctState = CtState.new.bits → ∀ icmpType icmpCode,
        (p.inputInterface = some i →
          (∃ d, (Change.runAll changes c₁).sink.ruleset.decidePacket c₀.config.filterTable
            Hook.input.name p = .ok d ∧ d.verdict = .accept) →
          ∃ d, (Change.runAll changes c₁).sink.ruleset.decidePacket c₀.config.filterTable
            Hook.output.name (p.reply icmpType icmpCode none (some i)) = .ok d ∧
              d.verdict = .accept) ∧
        (p.outputInterface = some i →
          i = Compiler.loopbackInterface ∨ p.destination.isLoopback = false ∧
            (elements .blacklist).any (·.contains p.destination.bytes) = false →
          (∃ d, (Change.runAll changes c₁).sink.ruleset.decidePacket c₀.config.filterTable
            Hook.output.name p = .ok d ∧ d.verdict = .accept) →
          ∃ d, (Change.runAll changes c₁).sink.ruleset.decidePacket c₀.config.filterTable
            Hook.input.name (p.reply icmpType icmpCode (some i) none) = .ok d ∧
              d.verdict = .accept) := by
  have installed := Change.runAll_installed changes (apply_installed configured enabled applied)
  obtain ⟨elements, contents⟩ := installed.contains
  refine ⟨elements, contents, ?_⟩
  intro p source destination new icmpType icmpCode
  have wf : p.wellFormed = true := beq_iff_eq.mpr (destination.trans source.symm)
  constructor
  · intro arrives accepted
    have accepts := installed.input_accepts configured contents source destination accepted
    obtain ⟨r, answer, answered⟩ := installed.output configured contents
      (p := p.reply icmpType icmpCode none (some i)) destination source
    have on : (p.reply icmpType icmpCode none (some i)).leavesBy = p.arrivesOn := by
      funext j
      rw [Packet.arrivesOn, arrives]
      rfl
    rw [on] at answered
    exact ⟨r, answer, answered.trans (HostPolicy.outputVerdict_reply wf new accepts)⟩
  · intro leaves sender accepted
    have accepts := installed.output_accepts configured contents source destination accepted
    obtain ⟨r, answer, answered⟩ := installed.input configured contents
      (p := p.reply icmpType icmpCode (some i) none) destination source
    have on : (p.reply icmpType icmpCode (some i) none).arrivesOn = p.leavesBy := by
      funext j
      rw [Packet.leavesBy, leaves]
      rfl
    rw [on] at answered
    have allowed : p.leavesBy Compiler.loopbackInterface = true ∨
        p.destination.isLoopback = false ∧
          (c₀.policy elements).holds .blacklist p.destination = false := by
      refine sender.imp_left ?_
      intro lo
      rw [Packet.leavesBy, leaves, lo]
      exact beq_self_eq_true _
    exact ⟨r, answer,
      answered.trans (HostPolicy.inputVerdict_reply wf new accepts allowed)⟩

/-- Trusted sources that reach the gateway get an answer. -/
theorem replies_accepted_gateway :
    ∃ d, (Change.runAll [.update .trusted [] ["198.51.100.7"]]
        (apply gateway).2).sink.ruleset.decidePacket gateway.config.filterTable Hook.output.name
        (shell.reply 0 0 none (some "eth0")) = .ok d ∧ d.verdict = .accept := by
  obtain ⟨elements, contents, replies⟩ := replies_accepted gateway_configured rfl gateway_applied
    [.update .trusted [] ["198.51.100.7"]] "eth0"
  have reaches : ((Change.runAll [.update .trusted [] ["198.51.100.7"]]
      (apply gateway).2).sink.ruleset.decidePacket gateway.config.filterTable Hook.input.name
      shell).toOption.map (·.verdict) = some .accept := by decide +kernel
  refine (replies shell rfl rfl rfl 0 0).1 rfl ?_
  generalize (Change.runAll [.update .trusted [] ["198.51.100.7"]]
    (apply gateway).2).sink.ruleset.decidePacket gateway.config.filterTable Hook.input.name shell = r
    at reaches
  cases r with
  | ok d => exact ⟨d, rfl, Option.some.inj reaches⟩
  | error e => cases reaches

end Applied

end Controller
end Firewall
