import Firewall.Interchange.Report
import Firewall.Proofs.Placement
import Firewall.Proofs.Success

namespace Firewall

def RuleData.unhandled (r : RuleData) : RuleData := { r with handle := none }

def InstalledChain.unhandled (c : InstalledChain) : InstalledChain :=
  { c with rules := c.rules.map RuleData.unhandled }

def InstalledTable.unhandled (t : InstalledTable) : InstalledTable :=
  { t with chains := t.chains.map InstalledChain.unhandled }

/-- The installed tables without the handles of their rules. -/
def Ruleset.unhandled (r : Ruleset) : List InstalledTable := r.tables.map InstalledTable.unhandled

/-- The rules of a list have no positions. -/
def Unplaced (rules : List RuleData) : Prop := ∀ r ∈ rules, r.position = none

def InstalledTable.Unplaced (t : InstalledTable) : Prop := ∀ c ∈ t.chains, Firewall.Unplaced c.rules

/-- Positions are filled in when rules are read back, and never installed. -/
def Ruleset.Unplaced (r : Ruleset) : Prop := ∀ t ∈ r.tables, t.Unplaced

namespace Ruleset

variable {r r' : Ruleset}

theorem unplaced_iff : r.Unplaced ↔ ∀ rule ∈ r.placed, rule.data.position = none := by
  constructor
  · intro unplaced rule there
    obtain ⟨t, ht, there⟩ := List.mem_flatMap.mp there
    obtain ⟨c, hc, there⟩ := List.mem_flatMap.mp there
    obtain ⟨data, member, rfl⟩ := List.mem_map.mp there
    exact unplaced t ht c hc data member
  · intro unplaced t ht c hc data member
    have there : (⟨t.table, c.chain.name, data⟩ : Rule) ∈ c.placed t.table :=
      List.mem_map_of_mem member
    exact unplaced _ (List.mem_flatMap_of_mem ht (List.mem_flatMap_of_mem hc there))

/-- No declaration installs a rule with a position. -/
theorem apply_unplaced {d : Declaration} (h : r.apply d = .ok r') (unplaced : r.Unplaced) :
    r'.Unplaced := by
  refine unplaced_iff.mpr fun rule there => ?_
  rcases (apply_shifts h).mem there with old | new
  · exact unplaced_iff.mp unplaced rule old
  · exact new.position

/-- Behind a flush only rules without positions are left, whatever there was. -/
theorem applyAll_flush_unplaced {index : Nat} {batch : Batch}
    (h : r.applyAll index (.flushRuleset :: batch) = .ok r') : r'.Unplaced := by
  obtain ⟨r₁, first, rest⟩ := applyAll_cons h
  cases first
  exact applyAll_keeps (fun _ unplaced h => apply_unplaced h unplaced)
    (fun i hi => absurd hi List.not_mem_nil) rest

end Ruleset

theorem InstalledTable.unhandled_outline {t : InstalledTable} (unplaced : t.Unplaced) :
    t.unhandled = t.outline fun _ _ => false := by
  have chains : t.chains.map InstalledChain.unhandled = t.chains.map InstalledChain.outline := by
    refine List.map_congr_left fun c hc => congrArg (InstalledChain.mk c.chain) ?_
    refine List.map_congr_left fun r hr => ?_
    rw [RuleData.unhandled, RuleData.bare, unplaced c hc r hr]
  have sets : t.sets.map (InstalledSet.outline fun _ => false) = t.sets := List.map_id t.sets
  rw [unhandled, outline, chains, sets]

theorem Ruleset.unhandled_outline {r : Ruleset} (unplaced : r.Unplaced) :
    r.unhandled = (r.outline fun _ _ => false).tables :=
  List.map_congr_left fun t ht => InstalledTable.unhandled_outline (unplaced t ht)

theorem InstalledTable.toJson_unhandled (t : InstalledTable) : t.unhandled.toJson = t.toJson := by
  have chains : t.unhandled.chains.map InstalledChain.toJson = t.chains.map InstalledChain.toJson := by
    rw [unhandled, List.map_map]
    refine List.map_congr_left fun c _ => ?_
    simp [InstalledChain.unhandled, InstalledChain.toJson, RuleData.unhandled, Function.comp_def]
  have sets : t.unhandled.sets = t.sets := rfl
  have table : t.unhandled.table = t.table := rfl
  rw [toJson, toJson, chains, sets, table]

/-- Handles do not enter the fingerprint. -/
theorem Kernel.fingerprint_unhandled {k k' : Kernel} (same : k.ruleset.unhandled = k'.ruleset.unhandled) :
    k.fingerprint = k'.fingerprint := by
  have tables : ∀ k : Kernel, k.ruleset.tables.map InstalledTable.toJson =
      k.ruleset.unhandled.map InstalledTable.toJson := by
    intro k
    rw [Ruleset.unhandled, List.map_map]
    exact List.map_congr_left fun t _ => t.toJson_unhandled.symm
  rw [fingerprint, fingerprint, tables, tables, same]

namespace Kernel

variable {k k' l l' : Kernel} {batch : Batch}

theorem commit_commits {u : Unit} (h : k.commit batch = (.ok u, k')) :
    k'.commits = k.commits + 1 ∧ k'.failNext = none := by
  unfold commit at h
  split at h
  · cases h
  · split at h
    · cases h
      exact ⟨rfl, rfl⟩
    · cases h

/-- A batch behind a flush leaves the same on every kernel, up to handles. -/
theorem commit_unhandled (plain : ∀ d ∈ batch, d.byHandle = false)
    (h : k.commit (.flushRuleset :: batch) = (.ok (), k'))
    (h' : l.commit (.flushRuleset :: batch) = (.ok (), l')) :
    k'.ruleset.unhandled = l'.ruleset.unhandled := by
  obtain ⟨e, made, outline⟩ := commit_installedBy plain h fun _ _ => false
  obtain ⟨e', made', outline'⟩ := commit_installedBy plain h' fun _ _ => false
  cases made.symm.trans made'
  rw [Ruleset.unhandled_outline (Ruleset.applyAll_flush_unplaced (commit_ok h)),
    Ruleset.unhandled_outline (Ruleset.applyAll_flush_unplaced (commit_ok h')), outline, outline']

/-- A batch behind a flush that one kernel takes is taken by every kernel that is not asked to fail. -/
theorem commit_again (plain : ∀ d ∈ batch, d.byHandle = false)
    (h : k.commit (.flushRuleset :: batch) = (.ok (), k')) (sound : l.failNext = none) :
    ∃ l', l.commit (.flushRuleset :: batch) = (.ok (), l') := by
  rcases map_eq_cases (Ruleset.applyAll_flush_outline (fun _ _ => false) k.ruleset l.ruleset plain 0) with
    ⟨r, r', here, there, -⟩ | ⟨fault, here, -⟩
  · refine ⟨⟨r', l.commits + 1, none, .flushRuleset :: batch⟩, ?_⟩
    rw [commit, sound]
    dsimp only
    rw [there]
  · cases (commit_ok h).symm.trans here

end Kernel

namespace Layout

variable {c : Config} {ports ports' : PortElements}

/-- The declarations of the policy are settled by the configuration. -/
theorem declarations_spelled (spells : Spells c ports) (spells' : Spells c ports') (l : Layout) :
    l.declarations c ports' = l.declarations c ports := by
  have filter : l.filterDeclarations c [] ports' = l.filterDeclarations c [] ports :=
    filterDeclarations_spelled spells spells'.trusted spells'.http spells'.smtp l []
  have manager : ports'.manager = ports.manager := Except.ok.inj (spells'.manager.symm.trans spells.manager)
  rw [declarations, declarations, filter, manager]

end Layout

/-- A namespace in which an action was run can be entered and left for every other one. -/
theorem Namespace.run_entered {σ τ α β : Type} {a : Action σ α} {s s' : σ} {host : Namespaces}
    {name : String} {x : α} (h : run host name a s = (.ok x, s')) (b : Action τ β) : run host name b = b := by
  obtain ⟨-, entered, left⟩ := run_ok h
  exact run_of_left entered left b

/-- A queued rule is valid, and its sets are declared. -/
theorem Compiler.queue_checked {σ : Type} [Sink σ] {plan : List PlannedRule} {p p' : Pending σ}
    (reset : p.transaction.reset = true) (h : queue plan p = (.ok (), p')) :
    ∀ r ∈ plan, r.data.program.validate r.chain.table.family = .ok () ∧
      ∀ s ∈ r.data.program.sets, (r.chain.table, s.name) ∈ p.transaction.declared := by
  induction plan generalizing p with
  | nil => exact fun r hr => absurd hr List.not_mem_nil
  | cons r plan ih =>
    unfold queue at h
    obtain ⟨_, p₁, first, rest⟩ := Action.bind_ok h
    obtain ⟨valid, known, rfl⟩ := Pending.addRule_ok reset first
    have later := ih (p := ⟨p.transaction.push r.declaration, p.sink⟩) reset rest
    exact List.forall_mem_cons.mpr ⟨⟨valid, known⟩, later⟩

namespace Controller

/-- The policy of a configuration behind one outside interface: the layout and the batch do not depend on
what was there. -/
theorem apply_settled {c c' d d' : Controller Kernel} (configured : c.Configured) (configured' : d.Configured)
    (config : d.config = c.config) (interface : d.outsideInterface = c.outsideInterface)
    (address : d.outsideAddress = c.outsideAddress) (enabled : c.config.enabled = true)
    (first : apply c = (.ok (), c')) (second : apply d = (.ok (), d')) :
    c'.layout = d'.layout ∧ ∃ batch, (∀ e ∈ batch, e.byHandle = false) ∧
      c.sink.commit (.flushRuleset :: batch) = (.ok (), c'.sink) ∧
      d.sink.commit (.flushRuleset :: batch) = (.ok (), d'.sink) := by
  obtain ⟨ports, plan, spells, planned, commit, state⟩ := apply_ok configured enabled first
  obtain ⟨ports', plan', spells', planned', commit', state'⟩ :=
    apply_ok configured' (by rw [config, enabled]) second
  have compiler : d.compiler (Layout.numbered d.config) = c.compiler (Layout.numbered c.config) := by
    rw [compiler, Controller.compiler, config, interface, address]
  rw [compiler] at planned'
  cases planned.symm.trans planned'
  rw [config] at spells'
  have batch : baselineBatch d.config ports' plan = baselineBatch c.config ports plan := by
    rw [baselineBatch, baselineBatch, config, Layout.declarations_spelled spells spells']
  rw [batch] at commit'
  refine ⟨?_, _, ?_, commit, commit'⟩
  · rw [state, state', config]
  · exact List.forall_mem_append.mpr ⟨Layout.declarations_plain, Layout.rules_plain plan⟩

/-- A layout that has been installed once can be installed again, where the same sets are declared and the
kernel takes the batch. The rules that were queued the first time can be queued again. -/
theorem install_again {declare : Action (Pending Kernel) Layout}
    {plan : Layout → Except Error (List PlannedRule)} {p p' q q₁ : Pending Kernel} {l l' : Layout}
    {rules : List PlannedRule} {batch : Batch} {k : Kernel} (first : install declare plan p = (.ok l', p'))
    (settled : ∀ l₁ p₁, declare p = (.ok l₁, p₁) →
      l₁ = l ∧ p₁.transaction.reset = true ∧ p₁.transaction.declared = q₁.transaction.declared)
    (again : declare q = (.ok l, q₁)) (reset : q₁.transaction.reset = true) (planned : plan l = .ok rules)
    (all : q₁.transaction.batch ++ rules.map PlannedRule.declaration = .flushRuleset :: batch)
    (taken : q₁.sink.commit (.flushRuleset :: batch) = (.ok (), k)) :
    ∃ q', install declare plan q = (.ok l, q') := by
  obtain ⟨l₁, p₁, declared, rest⟩ := Action.bind_ok first
  obtain ⟨rfl, reset₁, keys⟩ := settled l₁ p₁ declared
  obtain ⟨rules₁, p₂, compiled, rest⟩ := Action.bind_ok rest
  obtain ⟨planned₁, rfl⟩ := Action.ofExcept_ok compiled
  cases planned.symm.trans planned₁
  obtain ⟨_, p₃, queued, -⟩ := Action.bind_ok rest
  have checked := Compiler.queue_checked reset₁ queued
  rw [keys] at checked
  exact install_taken again reset planned checked all taken

/-- What has been applied to one kernel can be applied to every kernel that is not asked to fail. -/
theorem apply_again {c c' : Controller Kernel} (configured : c.Configured)
    (enabled : c.config.enabled = true) (h : apply c = (.ok (), c')) (layout : Layout) (applied : Bool)
    {k : Kernel} (sound : k.failNext = none) :
    ∃ d, apply { c with layout, applied, sink := k } = (.ok (), d) := by
  obtain ⟨ports, plan, spells, planned, commit, -⟩ := apply_ok configured enabled h
  obtain ⟨k', taken⟩ := Kernel.commit_again
    (List.forall_mem_append.mpr ⟨Layout.declarations_plain, Layout.rules_plain plan⟩) commit sound
  unfold apply at h ⊢
  rw [enabled, Bool.not_true, if_neg Bool.false_ne_true] at h ⊢
  obtain ⟨_, c₁, htransact, -⟩ := Action.bind_ok (Namespace.run_ok h).1
  obtain ⟨p, hinstall, -⟩ := Action.on_ok htransact
  rw [configured.template] at hinstall
  obtain ⟨l, q, declares⟩ := Layout.declareAll_sure spells (Pending.begin k)
  obtain ⟨rfl, same, reset, ports', spells', batch, keys⟩ := Layout.declareAll_ok declares
  rw [Layout.declarations_spelled spells spells'] at batch keys
  have settled : ∀ l₁ p₁, (Layout.ofConfig c.config).declareAll c.config (Pending.begin c.sink) =
      (.ok l₁, p₁) → l₁ = Layout.numbered c.config ∧ p₁.transaction.reset = true ∧
        p₁.transaction.declared = q.transaction.declared := by
    intro l₁ p₁ declared
    obtain ⟨rfl, -, reset₁, ports₁, spells₁, -, keys₁⟩ := Layout.declareAll_ok declared
    rw [keys₁, keys, Layout.declarations_spelled spells spells₁]
    exact ⟨rfl, reset₁, rfl⟩
  have installs : ∃ p', install ((Layout.ofConfig c.config).declareAll c.config)
      (fun l => (c.compiler l).baseline) (Pending.begin k) = (.ok (Layout.numbered c.config), p') :=
    install_again hinstall settled declares reset planned (by rw [batch]; rfl) (by rw [same]; exact taken)
  obtain ⟨p', installed⟩ := installs
  rw [← configured.template] at installed
  have transacted := transact_eq (c := { c with layout, applied, sink := k }) installed
  refine ⟨{ c with layout := Layout.numbered c.config, applied := true, sink := p'.sink }, ?_⟩
  rw [inNamespace, Namespace.run_entered h]
  exact Action.bind_eq transacted

/-- The sets of addresses are there behind an apply, and empty. -/
theorem apply_empties {c c' : Controller Kernel} (configured : c.Configured)
    (enabled : c.config.enabled = true) (h : apply c = (.ok (), c')) (which : AddressSet) :
    c'.sink.elements (which.set c'.layout) = .ok [] := by
  obtain ⟨ports, plan, -, -, commit, state⟩ := apply_ok configured enabled h
  have layout : c'.layout = Layout.numbered c.config := by rw [state]
  have there := Ruleset.applyAll_declared Layout.declarations_noFlush Layout.declarations_setKeys
    (Kernel.commit_ok commit) (Layout.mem_declarations_addresses which)
  rw [layout, Kernel.elements, there]
  rfl

/-- An apply forgets what was there. Controllers of one configuration and one outside interface commit one
batch, whatever their kernels hold and whatever they have done before; the batch is written as one document
with one checksum, and leaves the same tables behind, up to the handles of rules. So a policy can be applied
again, which makes no difference, and the sets of addresses are empty afterwards. -/
theorem apply_forgets {c c' d d' : Controller Kernel} (configured : c.Configured) (configured' : d.Configured)
    (config : d.config = c.config) (interface : d.outsideInterface = c.outsideInterface)
    (address : d.outsideAddress = c.outsideAddress) (enabled : c.config.enabled = true)
    (first : apply c = (.ok (), c')) (second : apply d = (.ok (), d')) :
    (c'.sink.commits = c.sink.commits + 1 ∧ d'.sink.commits = d.sink.commits + 1 ∧
      c'.sink.lastBatch = d'.sink.lastBatch) ∧
    Nft.documentToJson c'.sink.lastBatch = Nft.documentToJson d'.sink.lastBatch ∧
    c'.layout = d'.layout ∧
    c'.sink.ruleset.unhandled = d'.sink.ruleset.unhandled ∧
    c'.sink.fingerprint = d'.sink.fingerprint ∧
    (∃ c'', apply c' = (.ok (), c'') ∧ c''.sink.lastBatch = c'.sink.lastBatch ∧
      c''.sink.ruleset.unhandled = c'.sink.ruleset.unhandled ∧
      c''.sink.fingerprint = c'.sink.fingerprint) ∧
    ∀ which : AddressSet, c'.sink.elements (which.set c'.layout) = .ok [] := by
  have alike : ∀ {d d' : Controller Kernel}, d.Configured → d.config = c.config →
      d.outsideInterface = c.outsideInterface → d.outsideAddress = c.outsideAddress →
      apply d = (.ok (), d') → d'.sink.commits = d.sink.commits + 1 ∧ c'.layout = d'.layout ∧
        c'.sink.lastBatch = d'.sink.lastBatch ∧
        c'.sink.ruleset.unhandled = d'.sink.ruleset.unhandled := by
    intro d d' configured' config interface address second
    obtain ⟨layout, batch, plain, commit, commit'⟩ :=
      apply_settled configured configured' config interface address enabled first second
    refine ⟨(Kernel.commit_commits commit').1, layout, ?_, Kernel.commit_unhandled plain commit commit'⟩
    rw [Kernel.commit_lastBatch commit, Kernel.commit_lastBatch commit']
  obtain ⟨commits, -, -, -⟩ := alike configured rfl rfl rfl first
  obtain ⟨commits', layout, batch, tables⟩ := alike configured' config interface address second
  refine ⟨⟨commits, commits', batch⟩, by rw [batch], layout, tables, Kernel.fingerprint_unhandled tables, ?_,
    apply_empties configured enabled first⟩
  -- The kernel behind an apply is not asked to fail, so the policy can be applied to it.
  obtain ⟨ports, plan, -, -, commit, state⟩ := apply_ok configured enabled first
  obtain ⟨c'', again⟩ := apply_again configured enabled first (Layout.numbered c.config) true
    (Kernel.commit_commits commit).2
  rw [← state] at again
  have configured₁ : c'.Configured := by
    rw [state]
    exact ⟨configured.valid, configured.template⟩
  obtain ⟨-, -, batch', tables'⟩ :=
    alike configured₁ (by rw [state]) (by rw [state]) (by rw [state]) again
  exact ⟨c'', again, batch'.symm, tables'.symm, (Kernel.fingerprint_unhandled tables').symm⟩

def leftovers : Kernel :=
  let table := gateway.config.filterTable
  let chain : Chain := .filter table .input .accept
  { Kernel.empty with
    ruleset := ⟨[⟨table, [⟨chain, [(RuleData.unnamed []).withHandle 7]⟩],
      [⟨.ofKeyType table "__set3" .inetService, []⟩]⟩], 7⟩
    commits := 4 }

def gatewayOnLeftovers : Controller Kernel := { gateway with sink := leftovers }

theorem gatewayOnLeftovers_configured : gatewayOnLeftovers.Configured :=
  ⟨gateway_configured.valid, gateway_configured.template⟩

theorem apply_forgets_leftovers : ∃ c, apply gatewayOnLeftovers = (.ok (), c) ∧ c.sink.commits = 5 ∧
    (apply gateway).2.sink.lastBatch = c.sink.lastBatch ∧
    (apply gateway).2.sink.ruleset.unhandled = c.sink.ruleset.unhandled ∧
    (apply gateway).2.sink.fingerprint = c.sink.fingerprint := by
  obtain ⟨c, applied⟩ : ∃ c, apply gatewayOnLeftovers = (.ok (), c) :=
    apply_again gateway_configured rfl gateway_applied gateway.layout gateway.applied rfl
  obtain ⟨⟨-, commits, batch⟩, -, -, tables, fingerprint, -, -⟩ :=
    apply_forgets gateway_configured gatewayOnLeftovers_configured rfl rfl rfl rfl gateway_applied applied
  exact ⟨c, applied, commits, batch, tables, fingerprint⟩

theorem apply_off {c : Controller Kernel} (off : c.config.enabled = false) : apply c = (.ok (), c) := by
  unfold apply
  rw [off]
  rfl

def spectator : Controller Kernel := { gateway with config := { gateway.config with enabled := false } }

/-- Turned off, an apply succeeds and leaves what was there. -/
theorem apply_off_remembers :
    ¬ ∀ c c' d d' : Controller Kernel, c.Configured → d.Configured → d.config = c.config →
      d.outsideInterface = c.outsideInterface → d.outsideAddress = c.outsideAddress →
      apply c = (.ok (), c') → apply d = (.ok (), d') →
        c'.sink.ruleset.unhandled = d'.sink.ruleset.unhandled := by
  intro forgets
  have valid : spectator.config.validate = .ok () := by decide +kernel
  have same : spectator.sink.ruleset.unhandled = leftovers.ruleset.unhandled :=
    forgets spectator spectator { spectator with sink := leftovers } _ ⟨valid, rfl⟩ ⟨valid, rfl⟩ rfl rfl rfl
      (apply_off rfl) (apply_off rfl)
  have tables : [] = leftovers.ruleset.tables.map InstalledTable.unhandled := same
  cases tables

end Controller

end Firewall
