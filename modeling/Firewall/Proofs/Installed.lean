import Firewall.Controller
import Firewall.Kernel
import Firewall.Proofs.Namespace
import Firewall.Proofs.Layout
import Firewall.Proofs.Plan
import Firewall.Proofs.Ruleset

namespace Firewall

namespace Ruleset

variable {r r' : Ruleset} {index : Nat} {t : Table} {name : String}

/-- A batch behind a flush starts from nothing. -/
theorem applyAll_flush {batch : Batch} (h : r.applyAll index (.flushRuleset :: batch) = .ok r') :
    r'.Ordered ∧ (∀ t name, r'.set? t name = onSet t name batch none) ∧
      ∀ t name, r'.chain? t name = onChain t name r.lastHandle batch none := by
  obtain ⟨r₁, first, rest⟩ := applyAll_cons h
  cases first
  have empty : ({ r with tables := [] } : Ruleset).Ordered :=
    ⟨List.Pairwise.nil, fun i hi => absurd hi List.not_mem_nil⟩
  exact ⟨applyAll_ordered empty rest, applyAll_set? empty rest, applyAll_chain? empty rest⟩

/-- Rules change no set. -/
theorem onSet_rules (plan : List PlannedRule) (s : Option InstalledSet) :
    onSet t name (plan.map PlannedRule.declaration) s = s := by
  induction plan with
  | nil => rfl
  | cons r plan ih => exact ih

theorem rulesFor_cons (r : PlannedRule) (plan : List PlannedRule) :
    Compiler.rulesFor t name (r :: plan) =
      (if r.chain.table = t ∧ r.chain.name = name then [r.data] else []) ++
        Compiler.rulesFor t name plan := by
  unfold Compiler.rulesFor
  rw [List.filter_cons]
  by_cases here : r.chain.table = t ∧ r.chain.name = name
  · rw [if_pos (decide_eq_true here), if_pos here]
    rfl
  · rw [if_neg (fun h => here (of_decide_eq_true h)), if_neg here]
    rfl

/-- Planned rules end up in their chains, in order. -/
theorem onChain_rules (plan : List PlannedRule) (last : Nat) (c : InstalledChain) :
    ∃ rules, onChain t name last (plan.map PlannedRule.declaration) (some c) = some { c with rules } ∧
      rules.map RuleData.bare =
        c.rules.map RuleData.bare ++ (Compiler.rulesFor t name plan).map RuleData.bare := by
  induction plan generalizing last c with
  | nil => exact ⟨c.rules, rfl, (List.append_nil _).symm⟩
  | cons r plan ih =>
    have step : onChain t name last ((r :: plan).map PlannedRule.declaration) (some c) =
        onChain t name (last + 1) (plan.map PlannedRule.declaration)
          (r.declaration.onChain t name last (some c)) := rfl
    have here : r.declaration.onChain t name last (some c) =
        if t = r.chain.table ∧ name = r.chain.name then
          some { c with rules := c.rules ++ [r.data.withHandle (last + 1)] }
        else some c := rfl
    rw [step, here]
    by_cases same : t = r.chain.table ∧ name = r.chain.name
    · obtain ⟨rules, found, bare⟩ :=
        ih (last + 1) { c with rules := c.rules ++ [r.data.withHandle (last + 1)] }
      rw [if_pos same]
      refine ⟨rules, found, ?_⟩
      have kept : (r.data.withHandle (last + 1)).bare = r.data.bare := rfl
      rw [bare, rulesFor_cons, if_pos ⟨same.1.symm, same.2.symm⟩]
      simp [kept]
    · obtain ⟨rules, found, bare⟩ := ih (last + 1) c
      have other : ¬ (r.chain.table = t ∧ r.chain.name = name) :=
        fun both => same ⟨both.1.symm, both.2.symm⟩
      rw [if_neg same]
      refine ⟨rules, found, ?_⟩
      rw [bare, rulesFor_cons, if_neg other]
      rfl

end Ruleset

namespace Layout

def chains (l : Layout) : List Chain := [l.input, l.forward, l.output, l.postrouting]

def portSets (l : Layout) (c : Config) (ports : PortElements) : List (MatchSet × List Element) :=
  [(l.trustedPorts, ports.trusted), (l.managerPorts, ports.manager)] ++
  (if c.services.http then [(l.httpPorts, ports.http)] else []) ++
  (if c.services.smtp then [(l.smtpPorts, ports.smtp)] else [])

variable {l : Layout} {c : Config} {ports : PortElements}

theorem mem_declarations_chain {chain : Chain} (h : chain ∈ l.chains) :
    .addChain chain ∈ l.declarations c ports := by
  simp only [chains, List.mem_cons, List.not_mem_nil, or_false] at h
  rcases h with rfl | rfl | rfl | rfl <;> simp [declarations, filterDeclarations]

theorem mem_declarations_ports {set : MatchSet} {elements : List Element}
    (h : (set, elements) ∈ l.portSets c ports) :
    .addSet set elements ∈ l.declarations c ports := by
  simp only [portSets, List.mem_append, List.mem_cons, List.not_mem_nil, or_false] at h
  simp only [declarations, filterDeclarations, List.mem_append]
  rcases h with ((e | e) | http) | smtp
  · cases e
    simp
  · cases e
    simp
  · refine .inl (.inl (.inr ?_))
    split at http
    · rename_i wanted
      cases List.mem_singleton.mp http
      rw [if_pos wanted]
      exact List.mem_singleton_self _
    · exact absurd http List.not_mem_nil
  · refine .inl (.inr ?_)
    split at smtp
    · rename_i wanted
      cases List.mem_singleton.mp smtp
      rw [if_pos wanted]
      exact List.mem_singleton_self _
    · exact absurd smtp List.not_mem_nil

theorem mem_declarations_addresses (which : AddressSet) :
    .addSet (which.set l) [] ∈ l.declarations c ports := by
  cases which <;> simp [AddressSet.set, declarations, filterDeclarations]

def addressName : AddressSet → String
  | .trusted => "trust_ipset"
  | .manager => "manager_ipset"
  | .forward => "forward_ipset"
  | .blacklist => "blacklist_ipset"

theorem numbered_address (which : AddressSet) :
    ((which.set (numbered c)).table, (which.set (numbered c)).name) =
      (c.filterTable, addressName which) := by
  cases which <;> rfl

theorem numbered_address_inj {which other : AddressSet}
    (h : ((which.set (numbered c)).table, (which.set (numbered c)).name) =
      ((other.set (numbered c)).table, (other.set (numbered c)).name)) : which = other := by
  rw [numbered_address, numbered_address] at h
  have names : addressName which = addressName other := (Prod.ext_iff.mp h).2
  revert names
  cases which <;> cases other <;> decide

theorem numbered_ports {s : MatchSet × List Element} (h : s ∈ (numbered c).portSets c ports) :
    ∃ name ∈ ["trust_ports", "manager_ports", "__set3", "__set4"],
      (s.1.table, s.1.name) = (c.filterTable, name) := by
  unfold portSets at h
  simp only [List.mem_append, List.mem_cons, List.not_mem_nil, or_false] at h
  rcases h with ((rfl | rfl) | http) | smtp
  · exact ⟨"trust_ports", by decide, rfl⟩
  · exact ⟨"manager_ports", by decide, rfl⟩
  · split at http
    · rename_i wanted
      rw [List.mem_singleton.mp http]
      exact ⟨"__set3", by decide, numbered_httpPorts wanted⟩
    · exact absurd http List.not_mem_nil
  · split at smtp
    · rename_i wanted
      rw [List.mem_singleton.mp smtp]
      exact ⟨_, by cases c.services.http <;> decide, numbered_smtpPorts wanted⟩
    · exact absurd smtp List.not_mem_nil

/-- No set of ports is a set of addresses. -/
theorem numbered_ports_apart (which : AddressSet) {s : MatchSet × List Element}
    (h : s ∈ (numbered c).portSets c ports) :
    (s.1.table, s.1.name) ≠ ((which.set (numbered c)).table, (which.set (numbered c)).name) := by
  obtain ⟨name, member, key⟩ := numbered_ports h
  rw [key, numbered_address]
  intro e
  have same : name = addressName which := (Prod.ext_iff.mp e).2
  rw [same] at member
  revert member
  cases which <;> decide

end Layout

/-- A ruleset that holds the policy in full. -/
structure Ruleset.Carries (r : Ruleset) (c : Compiler) : Prop where
  ordered : r.Ordered
  chains : ∃ plan, c.baseline = .ok plan ∧ ∀ chain ∈ c.layout.chains,
    ∃ rules, r.chain? chain.table chain.name = some ⟨chain, rules⟩ ∧
      rules.map RuleData.bare =
        (Compiler.rulesFor chain.table chain.name plan).map RuleData.bare
  ports : ∃ ports, Layout.Spells c.config ports ∧ ∀ s ∈ c.layout.portSets c.config ports,
    r.set? s.1.table s.1.name = some ⟨s.1, addElements [] s.2⟩
  addresses : ∀ which : AddressSet, ∃ elements,
    r.set? (which.set c.layout).table (which.set c.layout).name =
      some ⟨which.set c.layout, elements⟩

/-- A set that is declared behind a flush, and named once, is there behind the rules. -/
theorem Ruleset.applyAll_declared {r r' : Ruleset} {declared : Batch} {plan : List PlannedRule}
    (noFlush : .flushRuleset ∉ declared) (nodup : (declared.filterMap Declaration.setKey?).Nodup)
    (h : r.applyAll 0 (.flushRuleset :: (declared ++ plan.map PlannedRule.declaration)) = .ok r')
    {set : MatchSet} {elements : List Element} (member : .addSet set elements ∈ declared) :
    r'.set? set.table set.name = some ⟨set, addElements [] elements⟩ := by
  rw [(applyAll_flush h).2.1, onSet_append, onSet_declared noFlush nodup member, onSet_rules]

/-- What declares a policy and places its rules leaves a ruleset that holds it, whatever was there. -/
theorem Ruleset.applyAll_carries {r r' : Ruleset} {c : Compiler} {ports : PortElements}
    {plan : List PlannedRule} (layout : c.layout = Layout.numbered c.config)
    (spells : Layout.Spells c.config ports) (planned : c.baseline = .ok plan)
    (h : r.applyAll 0 (.flushRuleset :: (c.layout.declarations c.config ports ++
      plan.map PlannedRule.declaration)) = .ok r') : r'.Carries c := by
  obtain ⟨ordered, -, chains⟩ := applyAll_flush h
  have noFlush : .flushRuleset ∉ c.layout.declarations c.config ports := by
    rw [layout]
    exact Layout.declarations_noFlush
  have setKeys : ((c.layout.declarations c.config ports).filterMap Declaration.setKey?).Nodup := by
    rw [layout]
    exact Layout.declarations_setKeys
  have chainKeys :
      ((c.layout.declarations c.config ports).filterMap Declaration.chainKey?).Nodup := by
    rw [layout]
    exact Layout.declarations_chainKeys
  refine ⟨ordered, ⟨plan, planned, ?_⟩, ⟨ports, spells, ?_⟩, ?_⟩
  · intro chain member
    have there : onChain chain.table chain.name r.lastHandle
        (c.layout.declarations c.config ports) none = some ⟨chain, []⟩ :=
      onChain_declared noFlush chainKeys (Layout.mem_declarations_chain member)
    rw [chains, onChain_append, there]
    exact onChain_rules plan _ ⟨chain, []⟩
  · intro s member
    exact applyAll_declared noFlush setKeys h (Layout.mem_declarations_ports member)
  · intro which
    exact ⟨[], applyAll_declared noFlush setKeys h (Layout.mem_declarations_addresses which)⟩

namespace Controller

/-- A controller for a valid configuration, with the layout that the configuration gives. -/
structure Configured {σ : Type} (c : Controller σ) : Prop where
  valid : c.config.validate = .ok ()
  template : c.template = Layout.ofConfig c.config

theorem start_configured {σ : Type} {config : Config} {sink : σ} {host : Discovery.Host}
    {c : Controller σ} (h : start config sink host = .ok c) : c.Configured := by
  unfold start at h
  split at h
  · cases h
  · rename_i valid
    split at h
    · cases h
    · cases h
      exact ⟨valid, rfl⟩

end Controller

theorem Kernel.commit_ok {k k' : Kernel} {batch : Batch} {u : Unit}
    (h : k.commit batch = (.ok u, k')) : k.ruleset.applyAll 0 batch = .ok k'.ruleset := by
  unfold commit at h
  split at h
  · cases h
  · split at h
    · rename_i ruleset applied
      cases h
      exact applied
    · cases h

theorem Pending.flush_ok {p p' : Pending Kernel} {u : Unit} (some : p.transaction.batch ≠ [])
    (h : flush p = (.ok u, p')) : p.sink.commit p.transaction.batch = (.ok u, p'.sink) := by
  unfold flush at h
  rw [if_neg (by simpa using some)] at h
  cases hc : Sink.commit p.transaction.batch p.sink with
  | mk r sink =>
    rw [hc] at h
    cases h
    exact hc

namespace Controller

/-- A controller over a kernel that holds the policy of another one's configuration. -/
structure Installed (c₀ c : Controller Kernel) : Prop where
  state : c = { c₀ with layout := Layout.numbered c₀.config, applied := true, sink := c.sink }
  carries : c.sink.ruleset.Carries (c₀.compiler (Layout.numbered c₀.config))

/-- A layout is declared and its rules are committed behind it, in one batch. -/
theorem install_ok {declare : Action (Pending Kernel) Layout}
    {plan : Layout → Except Error (List PlannedRule)} {p p' : Pending Kernel} {l : Layout}
    (h : install declare plan p = (.ok l, p')) :
    ∃ p₁ rules, declare p = (.ok l, p₁) ∧ plan l = .ok rules ∧
      (p₁.transaction.reset = true → p₁.transaction.batch ≠ [] →
        p₁.sink.commit (p₁.transaction.batch ++ rules.map PlannedRule.declaration) =
          (.ok (), p'.sink)) := by
  unfold install at h
  obtain ⟨layout, p₁, hdeclare, rest₁⟩ := Action.bind_ok h
  obtain ⟨rules, p₂, hplan, rest₂⟩ := Action.bind_ok rest₁
  obtain ⟨planned, rfl⟩ := Action.ofExcept_ok hplan
  obtain ⟨_, p₃, hqueue, rest₃⟩ := Action.bind_ok rest₂
  obtain ⟨_, p₄, hflush, rest₄⟩ := Action.bind_ok rest₃
  cases rest₄
  refine ⟨p₂, rules, hdeclare, planned, fun reset some => ?_⟩
  have queued := Compiler.queue_ok reset hqueue
  rw [queued] at hflush
  exact Pending.flush_ok (by simp [some]) hflush

/-- The batch that installs the policy of a configuration. -/
def baselineBatch (config : Config) (ports : PortElements) (plan : List PlannedRule) : Batch :=
  .flushRuleset ::
    ((Layout.numbered config).declarations config ports ++ plan.map PlannedRule.declaration)

/-- The policy is applied by one batch, which compiles the rules of the declared layout. -/
theorem apply_ok {c₀ c : Controller Kernel} (configured : c₀.Configured)
    (enabled : c₀.config.enabled = true) (h : apply c₀ = (.ok (), c)) :
    ∃ ports plan, Layout.Spells c₀.config ports ∧
      (c₀.compiler (Layout.numbered c₀.config)).baseline = .ok plan ∧
      c₀.sink.commit (baselineBatch c₀.config ports plan) = (.ok (), c.sink) ∧
      c = { c₀ with layout := Layout.numbered c₀.config, applied := true, sink := c.sink } := by
  unfold apply at h
  rw [enabled, Bool.not_true, if_neg Bool.false_ne_true, configured.template] at h
  obtain ⟨inside, -, -⟩ := Namespace.run_ok h
  obtain ⟨layout, c₁, htransact, rest⟩ := Action.bind_ok inside
  cases rest
  obtain ⟨p, hinstall, rfl⟩ := Action.on_ok htransact
  obtain ⟨p₁, plan, hdeclare, planned, committed⟩ := install_ok hinstall
  obtain ⟨rfl, sink, reset, ports, spells, batch, -⟩ := Layout.declareAll_ok hdeclare
  have commit := committed reset (by rw [batch]; exact List.cons_ne_nil _ _)
  rw [batch, sink] at commit
  exact ⟨ports, plan, spells, planned, commit, rfl⟩

/-- A policy that is applied is installed. -/
theorem apply_installed {c₀ c : Controller Kernel} (configured : c₀.Configured)
    (enabled : c₀.config.enabled = true) (h : apply c₀ = (.ok (), c)) : Installed c₀ c := by
  obtain ⟨ports, plan, spells, planned, commit, state⟩ := apply_ok configured enabled h
  exact ⟨state, Ruleset.applyAll_carries rfl spells planned (Kernel.commit_ok commit)⟩

end Controller
end Firewall
