import Firewall.Proofs.HostDecision

namespace Firewall

/-- A configuration without what a cleanup takes away. -/
def Config.reduced (c : Config) : Config :=
  { c with overlayInterface := "", overlayPort := 0, managerPorts := [] }

namespace HostPolicy

/-- The policy that a cleanup leaves. -/
def reduced (h : HostPolicy) : HostPolicy where
  config := h.config.reduced
  outsideInterface := h.outsideInterface
  elements
    | .trusted => h.elements .trusted
    | _ => []

variable {h : HostPolicy} {on : String → Bool} {p : Packet}

/-- Nobody is refused any more, and the overlay is closed. -/
theorem reduced_inputVerdict : h.reduced.inputVerdict on p =
    if on Compiler.loopbackInterface then .accept
    else if p.source.isLoopback then unreachable p.family
    else if h.outside on && h.accessInput p then .accept
    else h.config.defaultPolicy.verdict := by
  have refused : h.reduced.holds .blacklist p.source = false := rfl
  have overlay : h.reduced.overlay on = false := rfl
  have access : h.reduced.outsideInput p = h.accessInput p :=
    (h.reduced.outsideInput_eq p).trans (Bool.or_false _)
  have outside : h.reduced.outside on = h.outside on := rfl
  unfold inputVerdict
  rw [refused, overlay, access, outside, Bool.false_and, Bool.or_false, if_neg Bool.false_ne_true]
  rfl

theorem reduced_outputVerdict : h.reduced.outputVerdict on p =
    if on Compiler.loopbackInterface || h.outside on && h.accessOutput p then .accept
    else h.config.defaultPolicy.verdict := by
  have overlay : h.reduced.overlay on = false := rfl
  have access : h.reduced.outsideOutput p = h.accessOutput p :=
    (h.reduced.outsideOutput_eq p).trans (Bool.or_false _)
  have outside : h.reduced.outside on = h.outside on := rfl
  unfold outputVerdict
  rw [overlay, access, outside, Bool.false_and, Bool.or_false]
  rfl

/-- What the reduced policy lets in was let in before, unless its source was refused. -/
theorem inputVerdict_of_reduced (accepted : h.reduced.inputVerdict on p = .accept) :
    h.inputVerdict on p = .accept ∨ h.holds .blacklist p.source = true := by
  rw [reduced_inputVerdict] at accepted
  unfold inputVerdict
  split at accepted
  · rename_i lo
    exact .inl (if_pos lo)
  · rename_i notLo
    rw [if_neg notLo]
    split at accepted
    · rename_i loopback
      rw [if_pos loopback]
      exact .inl accepted
    · rename_i notLoopback
      rw [if_neg notLoopback]
      cases refused : h.holds .blacklist p.source with
      | true => exact .inr rfl
      | false =>
        rw [if_neg Bool.false_ne_true, outsideInput_eq]
        left
        split at accepted
        · rename_i access
          obtain ⟨outside, access⟩ := Bool.and_eq_true_iff.mp access
          simp [outside, access]
        · rw [accepted, ite_self]

theorem outputVerdict_of_reduced (accepted : h.reduced.outputVerdict on p = .accept) :
    h.outputVerdict on p = .accept := by
  rw [reduced_outputVerdict] at accepted
  unfold outputVerdict
  rw [outsideOutput_eq]
  split at accepted
  · rename_i access
    rcases Bool.or_eq_true_iff.mp access with lo | access
    · simp [lo]
    · obtain ⟨outside, access⟩ := Bool.and_eq_true_iff.mp access
      simp [outside, access]
  · simp [accepted]

/-- What comes in by the access that is kept still comes in. -/
theorem reduced_inputVerdict_access (accepted : h.inputVerdict on p = .accept)
    (access : on Compiler.loopbackInterface = true ∨ p.source.isLoopback = true ∨
      (h.outside on && h.accessInput p) = true) : h.reduced.inputVerdict on p = .accept := by
  rw [reduced_inputVerdict]
  -- Both policies judge loopback packets first, and in the same way.
  unfold inputVerdict at accepted
  split at accepted
  · rename_i lo
    rw [if_pos lo]
  · rename_i notLo
    rw [if_neg notLo]
    split at accepted
    · rename_i loopback
      rw [if_pos loopback, accepted]
    · rename_i notLoopback
      rw [if_neg notLoopback, if_pos ((access.resolve_left notLo).resolve_left notLoopback)]

theorem reduced_outputVerdict_access (access : on Compiler.loopbackInterface = true ∨
    (h.outside on && h.accessOutput p) = true) : h.reduced.outputVerdict on p = .accept := by
  rw [reduced_outputVerdict, if_pos (Bool.or_eq_true_iff.mpr access)]

end HostPolicy

namespace Compiler

/-- A compiler for a configuration without what a cleanup takes away. -/
def reduced (c : Compiler) : Compiler := { c with config := c.config.reduced }

section Names

def loopbackNames : List String := ["loopback-in", "loopback-out"]

/-- The names of the rules of one outside interface for messages, services and trusted sources. -/
def accessNames : List String :=
  ["icmp-in", "icmp-out", "dns-udp-in", "dns-udp-out", "dns-tcp-in", "dns-tcp-out", "http-in", "http-out",
    "smtp-in", "smtp-out", "trust-ping", "trust-in", "trust-out"]

/-- The ids of these rules for given interfaces. -/
def accessIds (interfaces : List String) : List String :=
  loopbackNames ++ interfaces.flatMap fun i => accessNames.map (idFor · i)

/-- The part of an id that names the rule, without the interface. -/
def ruleName (id : String) : List Char := id.toList.takeWhile (· != ':')

theorem ruleName_idFor {name : String} (plain : name.toList.all (· != ':') = true) (i : String) :
    ruleName (idFor name i) = name.toList := by
  have split : (idFor name i).toList = name.toList ++ ':' :: i.toList := by
    simp [idFor]
  rw [ruleName, split, List.takeWhile_append_of_pos (List.all_eq_true.mp plain), List.takeWhile_cons_of_neg (by decide),
    List.append_nil]

/-- Whether an id has the name of a rule for the access that is kept, of any interface. -/
def isAccess (id : String) : Bool :=
  (loopbackNames ++ accessNames).any fun name => name.toList == ruleName id

theorem isAccess_of_mem {interfaces : List String} {id : String} (h : id ∈ accessIds interfaces) :
    isAccess id = true := by
  rcases List.mem_append.mp h with loopback | interface
  · have known : ∀ id ∈ loopbackNames, isAccess id = true := by decide
    exact known id loopback
  · obtain ⟨i, -, named⟩ := List.mem_flatMap.mp interface
    obtain ⟨name, known, rfl⟩ := List.mem_map.mp named
    have plain : ∀ name ∈ accessNames, name.toList.all (· != ':') = true := by decide
    refine List.any_eq_true.mpr ⟨name, List.mem_append_right _ known, ?_⟩
    rw [ruleName_idFor (plain name known)]
    exact beq_self_eq_true _

end Names

section Groups

variable {c : Compiler}

/-- The ids of the rules of a group meet a condition. -/
def Named (P : String → Prop) (group : Except Error (List PlannedRule)) : Prop :=
  ∀ plan, group = .ok plan → ∀ r ∈ plan, ∃ id, r.data.id = some id ∧ P id

def RuleNamed (P : String → Prop) (r : Except Error PlannedRule) : Prop :=
  ∀ planned, r = .ok planned → ∃ id, planned.data.id = some id ∧ P id

section Ids

variable {P : String → Prop}

theorem rule_named {chain : Chain} {id : String} {parts : List (Except Error Program)} (h : P id) :
    RuleNamed P (rule chain id parts) := by
  intro planned built
  obtain ⟨programs, -, rfl⟩ := rule_ok built
  exact ⟨id, rfl, h⟩

theorem named_nil : Named P (.ok []) := by
  intro plan hp r hr
  cases hp
  cases hr

theorem named_rules {rs : List (Except Error PlannedRule)} (h : ∀ r ∈ rs, RuleNamed P r) :
    Named P (rules rs) :=
  fun _ hp _ hr => h _ (rules_mem hp hr) _ rfl

end Ids

section Others

/-- The other rules have other names. -/
theorem blacklist_named : Named (isAccess · = false) c.blacklist :=
  named_rules (by
    simp only [List.forall_mem_singleton]
    exact rule_named (by decide))

theorem overlayPort_named (i : String) : Named (isAccess · = false) (c.overlayPort i) := by
  have plain : ∀ name ∈ ["overlay-port-in", "overlay-port-out"], name.toList.all (· != ':') = true := by
    decide
  have other : ∀ name ∈ ["overlay-port-in", "overlay-port-out"],
      (loopbackNames ++ accessNames).any (fun known => known.toList == name.toList) = false := by decide
  have named : ∀ name ∈ ["overlay-port-in", "overlay-port-out"], isAccess (idFor name i) = false := by
    intro name member
    rw [isAccess, ruleName_idFor (plain name member)]
    exact other name member
  unfold overlayPort
  dsimp only
  split
  · exact named_nil
  · exact named_rules (by
      simp only [List.forall_mem_cons]
      exact ⟨rule_named (named _ (by simp)), rule_named (named _ (by simp)), List.forall_mem_nil _⟩)

theorem overlay_named : Named (isAccess · = false) c.overlay := by
  unfold overlay
  dsimp only
  split
  · exact named_nil
  · exact named_rules (by
      simp only [List.forall_mem_cons]
      exact ⟨rule_named (by decide), rule_named (by decide), rule_named (by decide), rule_named (by decide),
        rule_named (by decide), List.forall_mem_nil _⟩)

theorem forward_named : Named (isAccess · = false) c.forward := by
  unfold forward
  dsimp only
  refine named_rules (List.forall_mem_cons.mpr ⟨rule_named (by decide), ?_⟩)
  split
  · simp only [List.forall_mem_cons]
    exact ⟨rule_named (by decide), rule_named (by decide), rule_named (by decide), List.forall_mem_nil _⟩
  · exact List.forall_mem_nil _

theorem nat_named : Named (isAccess · = false) c.nat :=
  named_rules (by
    simp only [List.forall_mem_singleton]
    exact rule_named (by decide))

end Others

/-- A rule of the policy with the name of a rule for the access that is kept is one of these. -/
theorem baseline_access {plan : List PlannedRule} (planned : c.baseline = .ok plan) {r : PlannedRule}
    (hr : r ∈ plan) {id : String} (named : r.data.id = some id) (access : isAccess id = true) :
    (∃ front, c.loopback = .ok front ∧ r ∈ front) ∨
      ∃ i ∈ c.interfaces, ∃ front, c.common i = .ok front ∧ r ∈ front := by
  have other : ∀ {g front}, Named (isAccess · = false) g → g = .ok front → r ∈ front → False := by
    intro g front h built inside
    obtain ⟨id', named', other⟩ := h front built r inside
    cases named.symm.trans named'
    exact Bool.false_ne_true (other.symm.trans access)
  obtain ⟨front, member, inside⟩ := groups_mem planned hr
  simp only [List.mem_append, List.mem_cons, List.not_mem_nil, or_false, List.mem_map] at member
  -- Only the loopback rules and what an interface keeps have such names; the other groups are ruled out.
  rcases member with ((loopback | blacklist) | ⟨i, hi, interface⟩) | overlay | forward | nat
  · exact .inl ⟨front, loopback.symm, inside⟩
  · exact (other blacklist_named blacklist.symm inside).elim
  · obtain ⟨front', member', inside'⟩ := groups_mem interface inside
    rcases List.mem_cons.mp member' with common | last
    · exact .inr ⟨i, hi, front', common.symm, inside'⟩
    · exact (other (overlayPort_named i) (List.mem_singleton.mp last).symm inside').elim
  · exact (other overlay_named overlay.symm inside).elim
  · exact (other forward_named forward.symm inside).elim
  · exact (other nat_named nat.symm inside).elim

theorem mem_rulesFor {t : Table} {name : String} {plan : List PlannedRule} {d : RuleData} :
    d ∈ rulesFor t name plan ↔
      ∃ r ∈ plan, (r.chain.table = t ∧ r.chain.name = name) ∧ r.data = d := by
  simp [rulesFor, and_assoc]

/-- Where a rule for the access that is kept is the first that matches, its group has decided. -/
theorem first_access {members : Members} {p : Packet} {t : Table} {name : String} {plan : List PlannedRule}
    (planned : c.baseline = .ok plan) {d : RuleData}
    (first : RuleData.first? members p (rulesFor t name plan) = some d) {id : String} (named : d.id = some id)
    (access : isAccess id = true) {v : Option Verdict} {on : String → Bool} {b : Bool}
    (loopback : GroupDecides members p t name c.loopback v)
    (common : ∀ i, GroupDecides members p t name (c.common i) (accepts (on i && b))) :
    v ≠ none ∨ (c.interfaces.any on && b) = true := by
  obtain ⟨w, matched⟩ := RuleData.first?_some first
  obtain ⟨r, hr, here, rfl⟩ := mem_rulesFor.mp (List.mem_of_find?_eq_some first)
  have inGroup : ∀ {front}, r ∈ front → r.data ∈ rulesFor t name front :=
    fun inside => mem_rulesFor.mpr ⟨r, inside, here, rfl⟩
  rcases baseline_access planned hr named access with ⟨front, built, inside⟩ | ⟨i, hi, front, built, inside⟩
  · exact .inl ((loopback front built).matched (inGroup inside) matched)
  · have decided := (common i front built).matched (inGroup inside) matched
    cases accepted : on i && b with
    | false =>
      rw [accepted] at decided
      exact absurd rfl decided
    | true =>
      obtain ⟨there, allowed⟩ := Bool.and_eq_true_iff.mp accepted
      exact .inr (Bool.and_eq_true_iff.mpr ⟨List.any_eq_true.mpr ⟨i, hi, there⟩, allowed⟩)

/-- What a cleanup leaves is for packets of the host itself. -/
theorem only_cleanup (c : Compiler) : Only [c.layout.input, c.layout.output] c.cleanup := by
  refine only_groups ?_
  intro g hg
  rcases List.mem_cons.mp hg with rfl | interface
  · exact c.only_hostRules.1
  · obtain ⟨i, -, rfl⟩ := List.mem_map.mp interface
    exact c.only_common i

end Groups

namespace Meeting

variable {members : Members} {c : Compiler} {elements : AddressSet → List Element} {p : Packet}
  (s : Meeting members c elements p)
include s

theorem cleanup_input :
    ∃ v, GroupDecides members p c.layout.filter Hook.input.name c.cleanup v ∧
      v.getD c.config.defaultPolicy.verdict =
        (c.policy elements).reduced.inputVerdict p.arrivesOn p := by
  have all := groups_cons s.loopback_input (groups_map s.common_input c.interfaces)
  refine ⟨_, all, ?_⟩
  rw [any_interfaces_and c elements, HostPolicy.reduced_inputVerdict]
  cases p.arrivesOn loopbackInterface with
  | true => rfl
  | false =>
    cases p.source.isLoopback with
    | true => rfl
    | false => cases (c.policy elements).outside p.arrivesOn && (c.policy elements).accessInput p <;> rfl

theorem cleanup_output :
    ∃ v, GroupDecides members p c.layout.filter Hook.output.name c.cleanup v ∧
      v.getD c.config.defaultPolicy.verdict =
        (c.policy elements).reduced.outputVerdict p.leavesBy p := by
  have all := groups_cons s.loopback_output (groups_map s.common_output c.interfaces)
  refine ⟨_, all, ?_⟩
  rw [any_interfaces_and c elements, HostPolicy.reduced_outputVerdict]
  cases p.leavesBy loopbackInterface <;>
    cases (c.policy elements).outside p.leavesBy && (c.policy elements).accessOutput p <;> rfl

/-- Where a rule for the access that is kept is the first that matches a packet for the host, the packet has
that access, or comes from a loopback address. -/
theorem access_input {plan : List PlannedRule} (planned : c.baseline = .ok plan) {d : RuleData}
    (first : RuleData.first? members p (rulesFor c.layout.filter Hook.input.name plan) = some d)
    {id : String} (named : d.id = some id) (access : isAccess id = true) :
    p.arrivesOn loopbackInterface = true ∨ p.source.isLoopback = true ∨
      ((c.policy elements).outside p.arrivesOn && (c.policy elements).accessInput p) = true := by
  rcases first_access planned first named access s.loopback_input s.common_input with loopback | common
  · cases lo : p.arrivesOn loopbackInterface with
    | true => exact .inl rfl
    | false =>
      cases spoofed : p.source.isLoopback with
      | true => exact .inr (.inl rfl)
      | false =>
        rw [lo, spoofed] at loopback
        exact absurd rfl loopback
  · rw [any_interfaces c elements] at common
    exact .inr (.inr common)

theorem access_output {plan : List PlannedRule} (planned : c.baseline = .ok plan) {d : RuleData}
    (first : RuleData.first? members p (rulesFor c.layout.filter Hook.output.name plan) = some d)
    {id : String} (named : d.id = some id) (access : isAccess id = true) :
    p.leavesBy loopbackInterface = true ∨
      ((c.policy elements).outside p.leavesBy && (c.policy elements).accessOutput p) = true := by
  rcases first_access planned first named access s.loopback_output s.common_output with loopback | common
  · cases lo : p.leavesBy loopbackInterface with
    | true => exact .inl rfl
    | false =>
      rw [lo] at loopback
      exact absurd rfl loopback
  · rw [any_interfaces c elements] at common
    exact .inr common

end Meeting

end Compiler

namespace Controller.Installed

variable {c₀ c : Controller Kernel} (installed : Installed c₀ c) (configured : c₀.Configured)
  {elements : AddressSet → List Element} (contents : c.Contains elements) {p : Packet}
  (source : p.source.family = c₀.config.family) (destination : p.destination.family = c₀.config.family)
  {d : Decision} {id : String} (access : Compiler.isAccess id = true)
include installed configured contents source destination access

/-- What comes in by a rule for the access that is kept is let in by the reduced policy. -/
theorem input_access
    (decision : c.sink.ruleset.decidePacket c₀.config.filterTable Hook.input.name p = .ok d)
    (accepted : d.verdict = .accept) (named : d.id = some id) :
    (c₀.policy elements).reduced.inputVerdict p.arrivesOn p = .accept := by
  have meeting := installed.meeting configured contents source destination
  have accepts := installed.input_accepts configured contents source destination ⟨d, decision, accepted⟩
  obtain ⟨plan, planned, decides⟩ := installed.decides
    (show (Layout.numbered c₀.config).input ∈ (Layout.numbered c₀.config).chains from List.mem_cons_self)
  obtain ⟨v, group, -⟩ := meeting.baseline_input
  obtain ⟨d', decision', -, id'⟩ := decides p meeting.wellFormed (group plan planned).final
  cases decision.symm.trans decision'
  obtain ⟨rule, first, named'⟩ := Option.bind_eq_some_iff.mp (id'.symm.trans named)
  exact HostPolicy.reduced_inputVerdict_access accepts (meeting.access_input planned first named' access)

theorem output_access
    (decision : c.sink.ruleset.decidePacket c₀.config.filterTable Hook.output.name p = .ok d)
    (named : d.id = some id) :
    (c₀.policy elements).reduced.outputVerdict p.leavesBy p = .accept := by
  have meeting := installed.meeting configured contents source destination
  have member : (Layout.numbered c₀.config).output ∈ (Layout.numbered c₀.config).chains := by
    simp [Layout.chains]
  obtain ⟨plan, planned, decides⟩ := installed.decides member
  obtain ⟨v, group, -⟩ := meeting.baseline_output
  obtain ⟨d', decision', -, id'⟩ := decides p meeting.wellFormed (group plan planned).final
  cases decision.symm.trans decision'
  obtain ⟨rule, first, named'⟩ := Option.bind_eq_some_iff.mp (id'.symm.trans named)
  exact HostPolicy.reduced_outputVerdict_access (meeting.access_output planned first named' access)

end Controller.Installed

end Firewall
