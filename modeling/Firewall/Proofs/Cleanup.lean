import Firewall.Proofs.Access
import Firewall.Proofs.Elements
import Firewall.Proofs.Repetition

namespace Firewall

namespace Ruleset

variable {r r' : Ruleset} {index : Nat} {batch : Batch} {t : Table}

/-- A ruleset in order, whose sets hold no two elements with the same bounds. -/
structure Tidy (r : Ruleset) : Prop where
  ordered : r.Ordered
  distinct : r.Distinct

theorem applyAll_tidy (tidy : r.Tidy) (h : r.applyAll index batch = .ok r') : r'.Tidy :=
  ⟨applyAll_ordered tidy.ordered h, applyAll_distinct tidy.ordered tidy.distinct h⟩

/-- Behind a flush a ruleset is tidy, whatever there was. -/
theorem applyAll_flush_tidy (h : r.applyAll index (.flushRuleset :: batch) = .ok r') : r'.Tidy := by
  obtain ⟨r₁, first, rest⟩ := applyAll_cons h
  cases first
  refine applyAll_tidy ⟨⟨.nil, fun i hi => absurd hi List.not_mem_nil⟩, fun t name s found => ?_⟩ rest
  cases found

theorem changeTable_tables {f : InstalledTable → Except Rejection InstalledTable}
    (keeps : ∀ i j, f i = .ok j → j.table = i.table) (h : r.changeTable t f = .ok r') :
    r'.tables.map (·.table) = r.tables.map (·.table) := by
  unfold changeTable at h
  split at h
  · rename_i tables hc
    cases h
    exact changeFirst_keys (fun i j e hf => (keeps i j hf).trans e) hc
  · cases h

theorem placeRule_tables {rule : Rule} {put : RuleData → List RuleData → Except Rejection (List RuleData)}
    (h : r.placeRule rule put = .ok r') : r'.tables.map (·.table) = r.tables.map (·.table) := by
  unfold placeRule at h
  dsimp only at h
  split at h
  · rename_i r₁ placed
    cases h
    show r₁.tables.map (·.table) = _
    refine changeTable_tables (fun i j e => ?_) placed
    split at e
    · cases e
    · exact (InstalledTable.changeRules_ok e).1
  · cases h

/-- A table is there behind a declaration if it has been there before or is declared by it. -/
theorem apply_tables {d : Declaration} (h : r.apply d = .ok r') (there : t ∈ r'.tables.map (·.table)) :
    d = .addTable t ∨ t ∈ r.tables.map (·.table) := by
  cases d with
  | flushRuleset =>
    cases h
    exact absurd there List.not_mem_nil
  | addTable table =>
    cases h
    obtain ⟨i, hi, rfl⟩ := List.mem_map.mp there
    rcases addTable_mem hi with rfl | old
    · exact .inl rfl
    · exact .inr (List.mem_map_of_mem old)
  | addChain chain =>
    rw [changeTable_tables (fun i j e => ?_) h] at there
    · exact .inr there
    · cases e
      exact i.addChain_table chain
  | addSet set elements =>
    rw [changeTable_tables (fun i j e => ?_) h] at there
    · exact .inr there
    · split at e
      · cases e
        rfl
      · cases e
  | addElements set elements =>
    rw [changeTable_tables (fun i j e => (InstalledTable.changeElements_ok e).1) h] at there
    exact .inr there
  | deleteElements set elements =>
    rw [changeTable_tables (fun i j e => (InstalledTable.changeElements_ok e).1) h] at there
    exact .inr there
  | addRule rule =>
    unfold apply at h
    exact .inr (placeRule_tables h ▸ there)
  | insertRule rule before =>
    cases before with
    | none =>
      unfold apply at h
      exact .inr (placeRule_tables h ▸ there)
    | some handle =>
      unfold apply at h
      exact .inr (placeRule_tables h ▸ there)
  | deleteRule table chain handle =>
    rw [changeTable_tables (fun i j e => (InstalledTable.changeRules_ok e).1) h] at there
    exact .inr there

theorem applyAll_tables (h : r.applyAll index batch = .ok r') (there : t ∈ r'.tables.map (·.table)) :
    .addTable t ∈ batch ∨ t ∈ r.tables.map (·.table) := by
  refine applyAll_keeps
    (I := fun r₁ => t ∈ r₁.tables.map (·.table) → .addTable t ∈ batch ∨ t ∈ r.tables.map (·.table))
    (fun member before h there => ?_) .inr h there
  rcases apply_tables h there with rfl | old
  · exact .inl member
  · exact before old

/-- Behind a flush there are only tables that are declared. -/
theorem applyAll_flush_tables (h : r.applyAll index (.flushRuleset :: batch) = .ok r')
    (there : t ∈ r'.tables.map (·.table)) : .addTable t ∈ batch := by
  obtain ⟨r₁, first, rest⟩ := applyAll_cons h
  cases first
  exact (applyAll_tables rest there).resolve_right List.not_mem_nil

theorem decidePacket_wellFormed {name : String} {p : Packet} {d : Decision}
    (h : r.decidePacket t name p = .ok d) : p.wellFormed = true := by
  unfold decidePacket at h
  cases wf : p.wellFormed with
  | true => rfl
  | false =>
    rw [wf] at h
    cases h

/-- A chain of a ruleset accepts a packet. -/
def Accepts (r : Ruleset) (t : Table) (name : String) (p : Packet) : Prop :=
  ∃ d, r.decidePacket t name p = .ok d ∧ d.verdict = .accept

theorem accepts_iff {name : String} {p : Packet} {v : Verdict}
    (h : p.wellFormed = true → ∃ d, r.decidePacket t name p = .ok d ∧ d.verdict = v) :
    r.Accepts t name p ↔ p.wellFormed = true ∧ v = .accept := by
  constructor
  · rintro ⟨d, decision, accepted⟩
    have wf := decidePacket_wellFormed decision
    obtain ⟨d', decision', verdict⟩ := h wf
    cases decision.symm.trans decision'
    exact ⟨wf, verdict.symm.trans accepted⟩
  · rintro ⟨wf, accepted⟩
    obtain ⟨d, decision, verdict⟩ := h wf
    exact ⟨d, decision, verdict.trans accepted⟩

end Ruleset

theorem Kernel.commit_tidy {k : Kernel} (tidy : k.ruleset.Tidy) (batch : Batch) :
    (k.commit batch).2.ruleset.Tidy := by
  unfold commit
  split
  · exact tidy
  · split
    · rename_i applied
      exact Ruleset.applyAll_tidy tidy applied
    · exact tidy

namespace Controller

def Tidy (c : Controller Kernel) : Prop := c.sink.ruleset.Tidy

theorem flush_tidy : Pending.flush.Keeps fun p : Pending Kernel => p.sink.ruleset.Tidy := by
  intro p tidy
  unfold Pending.flush
  split
  · exact tidy
  · exact Kernel.commit_tidy tidy _

theorem quiet_tidy {α : Type} {a : Action (Pending Kernel) α} (quiet : Pending.Quiet a) :
    a.Keeps fun p => p.sink.ruleset.Tidy := by
  intro p tidy
  show (a p).2.sink.ruleset.Tidy
  rw [quiet.sink]
  exact tidy

theorem transact_tidy {α : Type} {a : Action (Pending Kernel) α}
    (ha : a.Keeps fun p => p.sink.ruleset.Tidy) : (transact a).Keeps Tidy :=
  .on ha (fun _ tidy => tidy) fun _ _ _ tidy => tidy

theorem updateSet_tidy (which : AddressSet) (remove add : List String) :
    (updateSet which remove add).Keeps Tidy := by
  intro c tidy
  unfold updateSet
  split
  · exact tidy
  · split
    · exact tidy
    · exact Action.Keeps.namespaced (.bind (.ofExcept _) fun remove => .bind (.ofExcept _) fun add =>
        transact_tidy (.bind (quiet_tidy (Pending.changeElements_quiet _ _ remove)) fun _ =>
          .bind (quiet_tidy (Pending.changeElements_quiet _ _ add)) fun _ => flush_tidy)) c tidy

theorem ban_tidy (specs : List String) (timeout : Option Duration) : (ban specs timeout).Keeps Tidy := by
  intro c tidy
  unfold ban
  split
  · exact tidy
  · split
    · exact tidy
    · exact Action.Keeps.namespaced (.bind (.ofExcept _) fun elements => transact_tidy
        (.bind (quiet_tidy (Pending.changeElements_quiet _ _ _)) fun _ => flush_tidy)) c tidy

end Controller

theorem Change.runAll_tidy (changes : List Change) {c : Controller Kernel} (tidy : c.Tidy) :
    (runAll changes c).Tidy := by
  induction changes generalizing c with
  | nil => exact tidy
  | cons change changes ih =>
    apply ih
    cases change with
    | update which remove add => exact Controller.updateSet_tidy which remove add c tidy
    | ban specs timeout => exact Controller.ban_tidy specs timeout c tidy
    | unban specs => exact Controller.updateSet_tidy .blacklist specs [] c tidy
    | failNext reason => exact tidy

namespace Layout

variable {config : Config} {trusted : List Element} {ports : PortElements}

/-- The reduced policy declares one table. -/
theorem filterDeclarations_tables {plan : List PlannedRule} {t : Table}
    (h : .addTable t ∈ (numberedFilter config).filterDeclarations config trusted ports ++
      plan.map PlannedRule.declaration) : t = config.filterTable := by
  rcases List.mem_append.mp h with declared | placed
  · unfold filterDeclarations at declared
    revert declared
    cases config.services.http <;> cases config.services.smtp <;> simp [numberedFilter, ofConfig]
  · obtain ⟨r, -, e⟩ := List.mem_map.mp placed
    cases e

theorem filterDeclarations_chainKeys : (((numberedFilter config).filterDeclarations config trusted ports).filterMap
    Declaration.chainKey?).Nodup := by
  have keys : ((numberedFilter config).filterDeclarations config trusted ports).filterMap
      Declaration.chainKey? =
      [(config.filterTable, "input"), (config.filterTable, "forward"), (config.filterTable, "output")] := by
    unfold filterDeclarations
    cases config.services.http <;> cases config.services.smtp <;> rfl
  rw [keys]
  simp

theorem numberedFilter_hooked (config : Config) : Compiler.Hooked (numberedFilter config) :=
  ⟨⟨rfl, rfl⟩, ⟨rfl, rfl⟩, ⟨rfl, rfl⟩, ⟨rfl, rfl⟩⟩

theorem natTable_ne (config : Config) : config.natTable ≠ config.filterTable := by
  intro same
  have names : config.tablePrefix ++ "nat" = config.tablePrefix ++ "filter" := congrArg Table.name same
  have ends := congrArg String.toList names
  simp at ends

end Layout

namespace Controller

/-- A controller over a kernel that holds what a cleanup leaves of the policy of another one. -/
structure Reduced (c c' : Controller Kernel) (trusted : List Element) : Prop where
  state : c' = { c with layout := Layout.numberedFilter c.config, applied := false, sink := c'.sink }
  chains : ∃ plan, (c.compiler (Layout.numberedFilter c.config)).cleanup = .ok plan ∧
    ∀ hook ∈ [Hook.input, .forward, .output],
      ∃ rules, c'.sink.ruleset.chain? c.config.filterTable hook.name =
          some ⟨.filter c.config.filterTable hook c.config.defaultPolicy, rules⟩ ∧
        rules.map RuleData.bare =
          (Compiler.rulesFor c.config.filterTable hook.name plan).map RuleData.bare
  sets : ∃ ports, Layout.Spells c.config ports ∧ ∀ set elements,
    .addSet set elements ∈ (Layout.numberedFilter c.config).filterDeclarations c.config trusted ports →
      c'.sink.ruleset.set? set.table set.name = some ⟨set, addElements [] elements⟩
  withdrawn : ∀ name ∈ Layout.withdrawnNames, c'.sink.ruleset.set? c.config.filterTable name = none
  tables : ∀ t ∈ c'.sink.tables, t = c.config.filterTable

variable {c c' : Controller Kernel}

theorem cleanup_reduced (configured : c.Configured) (enabled : c.config.enabled = true)
    (h : cleanup c = (.ok (), c')) :
    Reduced c c' ((c.sink.elements c.layout.trusted).toOption.getD []) := by
  obtain ⟨ports, plan, spells, planned, -, commit, state⟩ := cleanup_ok configured enabled h
  have made := Kernel.commit_ok commit
  obtain ⟨-, sets, chains⟩ := Ruleset.applyAll_flush made
  generalize (c.sink.elements c.layout.trusted).toOption.getD [] = trusted at *
  obtain ⟨once, withdrawn⟩ := Layout.filterDeclarations_sets c.config trusted ports
  refine ⟨state, ⟨plan, planned, ?_⟩, ⟨ports, spells, ?_⟩, ?_, ?_⟩
  · intro hook member
    have declared : .addChain (.filter c.config.filterTable hook c.config.defaultPolicy) ∈
        (Layout.numberedFilter c.config).filterDeclarations c.config trusted ports := by
      simp only [List.mem_cons, List.not_mem_nil, or_false] at member
      rcases member with rfl | rfl | rfl <;>
        simp [Layout.filterDeclarations, Layout.numberedFilter, Layout.ofConfig]
    have there : Ruleset.onChain c.config.filterTable hook.name c.sink.ruleset.lastHandle
        ((Layout.numberedFilter c.config).filterDeclarations c.config trusted ports) none =
          some ⟨.filter c.config.filterTable hook c.config.defaultPolicy, []⟩ :=
      Ruleset.onChain_declared Layout.filterDeclarations_noFlush Layout.filterDeclarations_chainKeys declared
    rw [chains, Ruleset.onChain_append, there]
    exact Ruleset.onChain_rules plan _ _
  · intro set elements declared
    exact Ruleset.applyAll_declared Layout.filterDeclarations_noFlush once made declared
  · intro name member
    rw [sets, Ruleset.onSet_append,
      Ruleset.onSet_other Layout.filterDeclarations_noFlush (withdrawn name member), Ruleset.onSet_rules]
  · intro t there
    exact Layout.filterDeclarations_tables (Ruleset.applyAll_flush_tables made there)

namespace Reduced

variable {elements : AddressSet → List Element} (reduced : Reduced c c' (elements .trusted))
include reduced

/-- The trusted sources are there in order, if they can be told apart. -/
theorem trusted (distinct : Element.Distinct (elements .trusted)) :
    let set := (Layout.numberedFilter c.config).trusted
    c'.sink.ruleset.set? set.table set.name = some ⟨set, elements .trusted⟩ := by
  obtain ⟨ports, -, declared⟩ := reduced.sets
  have there := declared (Layout.numberedFilter c.config).trusted (elements .trusted)
    (by simp [Layout.filterDeclarations])
  rw [addElements_nil distinct] at there
  exact there

/-- What a cleanup leaves is the reduced policy of the configuration. -/
theorem holds (configured : c.Configured) (distinct : Element.Distinct (elements .trusted)) :
    Compiler.Holds (c'.sink.ruleset.members c.config.filterTable)
      (c.compiler (Layout.numberedFilter c.config)).reduced (c.policy elements).reduced.elements := by
  have valid := Config.validate_ok configured.valid
  obtain ⟨ports, spells, declared⟩ := reduced.sets
  have held : ∀ {set es}, .addSet set es ∈
      (Layout.numberedFilter c.config).filterDeclarations c.config (elements .trusted) ports →
      set.table = c.config.filterTable → ∀ key,
        c'.sink.ruleset.members c.config.filterTable set.name key = es.any (·.contains key) := by
    intro set es member table key
    rw [← table, Ruleset.members_set (declared set es member), addElements_contains, List.any_nil,
      Bool.false_or]
  have gone : ∀ {name}, name ∈ Layout.withdrawnNames → ∀ key,
      c'.sink.ruleset.members c.config.filterTable name key = false :=
    fun withdrawn => Ruleset.members_none (reduced.withdrawn _ withdrawn)
  constructor
  · intro port
    have member : .addSet (Layout.numberedFilter c.config).trustedPorts ports.trusted ∈
        (Layout.numberedFilter c.config).filterDeclarations c.config (elements .trusted) ports := by
      simp [Layout.filterDeclarations]
    exact (held member rfl _).trans (spells.trusted_contains valid port)
  · intro port
    exact gone (show "manager_ports" ∈ Layout.withdrawnNames by decide) _
  · intro wanted port
    have wanted : c.config.services.http = true := wanted
    have table : (Layout.numberedFilter c.config).httpPorts.table = c.config.filterTable :=
      (Prod.ext_iff.mp (Layout.numbered_httpPorts wanted)).1
    exact (held (by simp [Layout.filterDeclarations, wanted]) table _).trans (spells.http_contains wanted port)
  · intro wanted port
    have wanted : c.config.services.smtp = true := wanted
    have table : (Layout.numberedFilter c.config).smtpPorts.table = c.config.filterTable :=
      (Prod.ext_iff.mp (Layout.numbered_smtpPorts wanted)).1
    exact (held (by simp [Layout.filterDeclarations, wanted]) table _).trans (spells.smtp_contains wanted port)
  · intro which a
    cases which with
    | trusted => exact Ruleset.members_set (reduced.trusted distinct) a.bytes
    | manager => exact gone (show "manager_ipset" ∈ Layout.withdrawnNames by decide) _
    | forward => exact gone (show "forward_ipset" ∈ Layout.withdrawnNames by decide) _
    | blacklist => exact gone (show "blacklist_ipset" ∈ Layout.withdrawnNames by decide) _

theorem meeting (configured : c.Configured) (distinct : Element.Distinct (elements .trusted)) {p : Packet}
    (wf : p.wellFormed = true) (family : p.family = c.config.family) :
    Compiler.Meeting (c'.sink.ruleset.members c.config.filterTable)
      (c.compiler (Layout.numberedFilter c.config)).reduced (c.policy elements).reduced.elements p where
  wellFormed := wf
  family := family.symm
  hooked := Layout.numberedFilter_hooked c.config
  holds := reduced.holds configured distinct

/-- A chain decides what the rules that are left in it decide together. -/
theorem decides {hook : Hook} {p : Packet} {v : Option Verdict} (wf : p.wellFormed = true)
    (member : hook ∈ [Hook.input, .forward, .output])
    (group : Compiler.GroupDecides (c'.sink.ruleset.members c.config.filterTable) p c.config.filterTable
      hook.name (c.compiler (Layout.numberedFilter c.config)).cleanup v) :
    ∃ d, c'.sink.ruleset.decidePacket c.config.filterTable hook.name p = .ok d ∧
      d.verdict = v.getD c.config.defaultPolicy.verdict := by
  obtain ⟨plan, planned, chains⟩ := reduced.chains
  obtain ⟨rules, found, bare⟩ := chains hook member
  obtain ⟨final, first⟩ := group plan planned
  let chain : Chain := .filter c.config.filterTable hook c.config.defaultPolicy
  have there : c'.sink.ruleset.chain? chain.table chain.name = some ⟨chain, rules⟩ := found
  obtain ⟨d, decision, verdict, -⟩ := Ruleset.planned_decides there bare wf final
  exact ⟨d, decision, by rw [verdict, ← first]; rfl⟩

theorem input (configured : c.Configured) (distinct : Element.Distinct (elements .trusted)) {p : Packet}
    (wf : p.wellFormed = true) (family : p.family = c.config.family) :
    ∃ d, c'.sink.ruleset.decidePacket c.config.filterTable Hook.input.name p = .ok d ∧
      d.verdict = (c.policy elements).reduced.inputVerdict p.arrivesOn p := by
  obtain ⟨v, group, verdict⟩ := (reduced.meeting configured distinct wf family).cleanup_input
  rw [← show _ = (c.policy elements).reduced.inputVerdict p.arrivesOn p from verdict]
  exact reduced.decides wf (by simp) group

theorem output (configured : c.Configured) (distinct : Element.Distinct (elements .trusted)) {p : Packet}
    (wf : p.wellFormed = true) (family : p.family = c.config.family) :
    ∃ d, c'.sink.ruleset.decidePacket c.config.filterTable Hook.output.name p = .ok d ∧
      d.verdict = (c.policy elements).reduced.outputVerdict p.leavesBy p := by
  obtain ⟨v, group, verdict⟩ := (reduced.meeting configured distinct wf family).cleanup_output
  rw [← show _ = (c.policy elements).reduced.outputVerdict p.leavesBy p from verdict]
  exact reduced.decides wf (by simp) group

/-- The forward chain has no rules left. -/
theorem forward {p : Packet} (wf : p.wellFormed = true) :
    ∃ d, c'.sink.ruleset.decidePacket c.config.filterTable Hook.forward.name p = .ok d ∧
      d.verdict = c.config.defaultPolicy.verdict := by
  have silent : Compiler.GroupDecides (c'.sink.ruleset.members c.config.filterTable) p c.config.filterTable
      Hook.forward.name (c.compiler (Layout.numberedFilter c.config)).cleanup none :=
    (Compiler.only_cleanup _).decides_none
      ((Layout.numberedFilter_hooked c.config).host_ne (by decide) (by decide))
  exact reduced.decides wf (by simp) silent

theorem elements_eq (distinct : Element.Distinct (elements .trusted)) :
    c'.sink.elements c'.layout.trusted = .ok (elements .trusted) := by
  have layout : c'.layout = Layout.numberedFilter c.config := by rw [reduced.state]
  rw [layout]
  exact Kernel.elements_ok (reduced.trusted distinct)

/-- All other address sets are gone. -/
theorem withdrawn_sets (which : AddressSet) (other : which ≠ .trusted) :
    c'.sink.hasSet c.config.filterTable (Layout.addressName which) = false := by
  have withdrawn : Layout.addressName which ∈ Layout.withdrawnNames := by
    revert other
    cases which <;> decide
  rw [Kernel.hasSet, reduced.withdrawn _ withdrawn]
  rfl

end Reduced

/-- What a cleanup leaves depends on the configuration, the outside interface and the trusted sources only. -/
theorem cleanup_settled {d d' : Controller Kernel} (configured : c.Configured) (configured' : d.Configured)
    (config : d.config = c.config) (interface : d.outsideInterface = c.outsideInterface)
    (address : d.outsideAddress = c.outsideAddress) (enabled : c.config.enabled = true)
    (kept : (d.sink.elements d.layout.trusted).toOption.getD [] =
      (c.sink.elements c.layout.trusted).toOption.getD [])
    (first : cleanup c = (.ok (), c')) (second : cleanup d = (.ok (), d')) :
    c'.sink.ruleset.unhandled = d'.sink.ruleset.unhandled := by
  obtain ⟨ports, plan, spells, planned, -, commit, -⟩ := cleanup_ok configured enabled first
  obtain ⟨ports', plan', spells', planned', -, commit', -⟩ :=
    cleanup_ok configured' (by rw [config, enabled]) second
  have compiler : d.compiler (Layout.numberedFilter d.config) = c.compiler (Layout.numberedFilter c.config) := by
    rw [compiler, Controller.compiler, config, interface, address]
  rw [compiler] at planned'
  cases planned.symm.trans planned'
  rw [config] at spells'
  have batch : ∀ trusted, cleanupBatch d.config trusted ports' plan = cleanupBatch c.config trusted ports plan := by
    intro trusted
    rw [cleanupBatch, cleanupBatch, config,
      Layout.filterDeclarations_spelled spells spells'.trusted spells'.http spells'.smtp]
  rw [kept, batch] at commit'
  refine Kernel.commit_unhandled ?_ commit commit'
  exact List.forall_mem_append.mpr ⟨Layout.filterDeclarations_plain, Layout.rules_plain plan⟩

/-- What has been cleaned up can be cleaned up again, on every kernel that is not asked to fail and holds the
same trusted sources. -/
theorem cleanup_again (configured : c.Configured) (enabled : c.config.enabled = true)
    (h : cleanup c = (.ok (), c')) (layout : Layout) (applied : Bool) {k : Kernel} (sound : k.failNext = none)
    (kept : (k.elements layout.trusted).toOption.getD [] =
      (c.sink.elements c.layout.trusted).toOption.getD []) :
    ∃ d, cleanup { c with layout, applied, sink := k } = (.ok (), d) := by
  obtain ⟨ports, plan, spells, planned, checked, commit, -⟩ := cleanup_ok configured enabled h
  obtain ⟨k', taken⟩ := Kernel.commit_again
    (List.forall_mem_append.mpr ⟨Layout.filterDeclarations_plain, Layout.rules_plain plan⟩) commit sound
  unfold cleanup at h ⊢
  rw [enabled, Bool.not_true, if_neg Bool.false_ne_true] at h ⊢
  obtain ⟨trusted, c₁, read, rest⟩ := Action.bind_ok (Namespace.run_ok h).1
  rw [elementsOrNone_eq] at read
  cases read
  obtain ⟨_, c₂, htransact, -⟩ := Action.bind_ok rest
  obtain ⟨p, hinstall, -⟩ := Action.on_ok htransact
  rw [configured.template] at hinstall
  generalize (c.sink.elements c.layout.trusted).toOption.getD [] = trusted at *
  -- The trusted sources have passed the check of their set once, and are declared with it again.
  obtain ⟨l, q, declares⟩ := Layout.declareReduced_sure spells checked (Pending.begin k)
  obtain ⟨rfl, -, same, reset, batch, keys⟩ := Layout.declareReduced_ok spells declares
  have settled : ∀ l₁ p₁, (Layout.ofConfig c.config).declareReduced c.config trusted (Pending.begin c.sink) =
      (.ok l₁, p₁) → l₁ = Layout.numberedFilter c.config ∧ p₁.transaction.reset = true ∧
        p₁.transaction.declared = q.transaction.declared := by
    intro l₁ p₁ declared
    obtain ⟨rfl, -, -, reset₁, -, keys₁⟩ := Layout.declareReduced_ok spells declared
    exact ⟨rfl, reset₁, keys₁.trans keys.symm⟩
  have installs : ∃ p', install ((Layout.ofConfig c.config).declareReduced c.config trusted)
      (fun l => (c.compiler l).cleanup) (Pending.begin k) = (.ok (Layout.numberedFilter c.config), p') :=
    install_again hinstall settled declares reset planned (by rw [batch]; rfl) (by rw [same]; exact taken)
  obtain ⟨p', installed⟩ := installs
  rw [← configured.template] at installed
  have transacted := transact_eq (c := { c with layout, applied, sink := k }) installed
  refine ⟨{ c with layout := Layout.numberedFilter c.config, applied := false, sink := p'.sink }, ?_⟩
  rw [inNamespace, Namespace.run_entered h, Action.bind_eq (elementsOrNone_eq _ _)]
  dsimp only
  rw [kept]
  exact Action.bind_eq transacted

/-- Cleaning up twice in a row makes no difference to cleaning up once, if the trusted sources are kept. -/
theorem cleanup_twice (configured : c.Configured) (enabled : c.config.enabled = true)
    (cleaned : cleanup c = (.ok (), c'))
    (kept : c'.sink.elements c'.layout.trusted = .ok ((c.sink.elements c.layout.trusted).toOption.getD [])) :
    ∃ c'', cleanup c' = (.ok (), c'') ∧ c''.sink.ruleset.unhandled = c'.sink.ruleset.unhandled := by
  have same : (c'.sink.elements c'.layout.trusted).toOption.getD [] =
      (c.sink.elements c.layout.trusted).toOption.getD [] := by
    rw [kept]
    rfl
  obtain ⟨_, _, -, -, -, commit, state⟩ := cleanup_ok configured enabled cleaned
  have layout : c'.layout = Layout.numberedFilter c.config := by rw [state]
  obtain ⟨c'', again⟩ := cleanup_again configured enabled cleaned (Layout.numberedFilter c.config) false
    (Kernel.commit_commits commit).2 (layout ▸ same)
  rw [← state] at again
  have configured' : c'.Configured := by
    rw [state]
    exact ⟨configured.valid, configured.template⟩
  have tables := cleanup_settled configured configured' (by rw [state]) (by rw [state]) (by rw [state]) enabled
    same cleaned again
  exact ⟨c'', again, tables.symm⟩

namespace Installed

variable {c₀ : Controller Kernel} (installed : Installed c₀ c)
include installed

theorem config : c.config = c₀.config := by rw [installed.state]

theorem configured (configured : c₀.Configured) : c.Configured := by
  rw [installed.state]
  exact ⟨configured.valid, configured.template⟩

/-- Changes of the address sets leave what a cleanup makes of a policy to the controller that has applied it. -/
theorem reduced {trusted : List Element} (reduced : Reduced c c' trusted) : Reduced c₀ c' trusted := by
  rw [installed.state] at reduced
  exact ⟨reduced.state, reduced.chains, reduced.sets, reduced.withdrawn, reduced.tables⟩

variable (configured : c₀.Configured) {elements : AddressSet → List Element} (contents : c.Contains elements)
  (reduced : Reduced c₀ c' (elements .trusted)) (distinct : Element.Distinct (elements .trusted)) {p : Packet}
  (family : p.family = c₀.config.family)
include configured contents reduced distinct family

theorem input_of_reduced (accepted : c'.sink.ruleset.Accepts c₀.config.filterTable Hook.input.name p) :
    c.sink.ruleset.Accepts c₀.config.filterTable Hook.input.name p ∨
      (elements .blacklist).any (·.contains p.source.bytes) = true := by
  have left := Ruleset.accepts_iff fun wf => reduced.input configured distinct wf family
  have before := Ruleset.accepts_iff fun wf =>
    installed.input configured contents family ((eq_of_beq wf).trans family)
  obtain ⟨wf, verdict⟩ := left.mp accepted
  exact (HostPolicy.inputVerdict_of_reduced verdict).imp_left fun verdict => before.mpr ⟨wf, verdict⟩

theorem output_of_reduced (accepted : c'.sink.ruleset.Accepts c₀.config.filterTable Hook.output.name p) :
    c.sink.ruleset.Accepts c₀.config.filterTable Hook.output.name p := by
  have left := Ruleset.accepts_iff fun wf => reduced.output configured distinct wf family
  have before := Ruleset.accepts_iff fun wf =>
    installed.output configured contents family ((eq_of_beq wf).trans family)
  obtain ⟨wf, verdict⟩ := left.mp accepted
  exact before.mpr ⟨wf, HostPolicy.outputVerdict_of_reduced verdict⟩

/-- What was accepted by a rule for the access that is kept still is. -/
theorem reduced_access {hook : Hook} (member : hook ∈ [Hook.input, .output]) {d : Decision} {id : String}
    (decision : c.sink.ruleset.decidePacket c₀.config.filterTable hook.name p = .ok d)
    (accepted : d.verdict = .accept) (named : d.id = some id)
    (known : id ∈ Compiler.accessIds (c₀.outsideInterface :: c₀.config.interfaces)) :
    c'.sink.ruleset.Accepts c₀.config.filterTable hook.name p := by
  have access := Compiler.isAccess_of_mem known
  have wf := Ruleset.decidePacket_wellFormed decision
  have destination : p.destination.family = c₀.config.family := (eq_of_beq wf).trans family
  rcases List.mem_cons.mp member with rfl | member
  · obtain ⟨d', decision', verdict⟩ := reduced.input configured distinct wf family
    have lets := installed.input_access configured contents family destination access decision accepted named
    exact ⟨d', decision', verdict.trans lets⟩
  · cases List.mem_singleton.mp member
    obtain ⟨d', decision', verdict⟩ := reduced.output configured distinct wf family
    have lets := installed.output_access configured contents family destination access decision named
    exact ⟨d', decision', verdict.trans lets⟩

end Installed

theorem Tidy.elements_distinct (tidy : c.Tidy) {set : MatchSet} {es : List Element}
    (h : c.sink.elements set = .ok es) : Element.Distinct es := by
  unfold Kernel.elements at h
  split at h
  · rename_i s found
    cases h
    exact tidy.distinct _ _ s found
  · cases h

/-- A cleanup keeps the access of the host and opens nothing. Whatever has happened to the address sets since
the policy was applied, the trusted sources stay as they are, in order. What comes in afterwards came in before,
but for what comes from the blacklist, and what goes out went out. What was accepted by a rule of the loopback
interface, or by one for messages, services or trusted sources on an outside interface, still is. Nothing is
forwarded by a policy that drops; source NAT and the other address sets are gone; and cleaning up once more
makes no difference. -/
theorem cleanup_keeps_access {c₀ c₁ : Controller Kernel} (configured : c₀.Configured)
    (enabled : c₀.config.enabled = true) (applied : apply c₀ = (.ok (), c₁)) (changes : List Change)
    (cleaned : cleanup (Change.runAll changes c₁) = (.ok (), c')) :
    ∃ elements, (Change.runAll changes c₁).Contains elements ∧
      c'.sink.elements c'.layout.trusted = .ok (elements .trusted) ∧
      (∀ p : Packet, p.family = c₀.config.family →
        (c'.sink.ruleset.Accepts c₀.config.filterTable Hook.input.name p →
          (Change.runAll changes c₁).sink.ruleset.Accepts c₀.config.filterTable Hook.input.name p ∨
            (elements .blacklist).any (·.contains p.source.bytes) = true) ∧
        (c'.sink.ruleset.Accepts c₀.config.filterTable Hook.output.name p →
          (Change.runAll changes c₁).sink.ruleset.Accepts c₀.config.filterTable Hook.output.name p) ∧
        ∀ hook ∈ [Hook.input, .output], ∀ d id,
          (Change.runAll changes c₁).sink.ruleset.decidePacket c₀.config.filterTable hook.name p = .ok d →
            d.verdict = .accept → d.id = some id →
              id ∈ Compiler.accessIds (c₀.outsideInterface :: c₀.config.interfaces) →
                c'.sink.ruleset.Accepts c₀.config.filterTable hook.name p) ∧
      (c₀.config.defaultPolicy = .drop → ∀ p : Packet,
        ¬ c'.sink.ruleset.Accepts c₀.config.filterTable Hook.forward.name p) ∧
      c₀.config.natTable ∉ c'.sink.tables ∧
      (∀ which ≠ AddressSet.trusted,
        c'.sink.hasSet c₀.config.filterTable (Layout.addressName which) = false) ∧
      ∃ c'', cleanup c' = (.ok (), c'') ∧ c''.sink.ruleset.unhandled = c'.sink.ruleset.unhandled := by
  obtain ⟨_, _, -, -, commit₁, -⟩ := apply_ok configured enabled applied
  have tidy : (Change.runAll changes c₁).Tidy :=
    Change.runAll_tidy changes (Ruleset.applyAll_flush_tidy (Kernel.commit_ok commit₁))
  have installed := Change.runAll_installed changes (apply_installed configured enabled applied)
  generalize Change.runAll changes c₁ = c at tidy installed cleaned ⊢
  obtain ⟨elements, contents⟩ := installed.contains
  have trusted : (c.sink.elements c.layout.trusted).toOption.getD [] = elements .trusted :=
    congrArg (fun r => r.toOption.getD []) (contents .trusted)
  -- No two of the trusted sources share their bounds, so declaring them again leaves none of them out.
  have distinct := tidy.elements_distinct (contents .trusted)
  have reduced : Reduced c₀ c' (elements .trusted) :=
    trusted ▸ installed.reduced (cleanup_reduced (installed.configured configured)
      (installed.config.symm ▸ enabled) cleaned)
  have kept : c'.sink.elements c'.layout.trusted = .ok (elements .trusted) := reduced.elements_eq distinct
  refine ⟨elements, contents, kept, fun p family => ⟨?_, ?_, ?_⟩, ?_, ?_, reduced.withdrawn_sets, ?_⟩
  · exact installed.input_of_reduced configured contents reduced distinct family
  · exact installed.output_of_reduced configured contents reduced distinct family
  · intro hook member d id decision accepted named known
    exact installed.reduced_access configured contents reduced distinct family member decision accepted named known
  · intro drop p accepted
    have forward := Ruleset.accepts_iff fun wf => reduced.forward (p := p) wf
    have verdict := (forward.mp accepted).2
    rw [drop] at verdict
    cases verdict
  · exact fun there => Layout.natTable_ne c₀.config (reduced.tables _ there)
  · exact cleanup_twice (installed.configured configured) (installed.config.symm ▸ enabled) cleaned
      (kept.trans (congrArg Except.ok trusted.symm))

def visited : List Change := [.update .trusted [] ["198.51.100.7"], .ban ["192.0.2.1"] none]

/-- The trusted source still reaches the gateway after a cleanup, and nothing is relayed for the overlay. -/
theorem cleanup_keeps_access_visited :
    ∃ c', cleanup (Change.runAll visited (apply gateway).2) = (.ok (), c') ∧
      c'.sink.ruleset.Accepts gateway.config.filterTable Hook.input.name shell ∧
      ¬ c'.sink.ruleset.Accepts gateway.config.filterTable Hook.forward.name relayed ∧
      gateway.config.natTable ∉ c'.sink.tables := by
  have cleaned := Action.succeeded (a := cleanup) (s := Change.runAll visited (apply gateway).2)
    (by decide +kernel)
  have reaches : ((Change.runAll visited (apply gateway).2).sink.ruleset.decidePacket
      gateway.config.filterTable Hook.input.name shell).toOption.map (fun d => (d.verdict, d.id)) =
        some (.accept, some "trust-in:eth0") := by decide +kernel
  obtain ⟨d, found, decided⟩ := Option.map_eq_some_iff.mp reaches
  obtain ⟨verdict, id⟩ := Prod.mk.inj decided
  obtain ⟨elements, -, -, packets, forward, nat, -⟩ :=
    cleanup_keeps_access gateway_configured rfl gateway_applied visited cleaned
  obtain ⟨-, -, keeps⟩ := packets shell rfl
  refine ⟨_, cleaned, ?_, forward rfl relayed, nat⟩
  exact keeps .input List.mem_cons_self d _ (ok_of_toOption found) verdict id (by decide)

end Controller

end Firewall
