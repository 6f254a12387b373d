import Firewall.Proofs.Failures

namespace Firewall

theorem Spec.readAll_total {α β : Type} {read : α → Except Error β} {texts : List α}
    (h : ∀ s ∈ texts, ∃ e, read s = .ok e) : ∃ es, Spec.readAll read texts = .ok es := by
  induction texts with
  | nil => exact ⟨[], rfl⟩
  | cons s texts ih =>
    obtain ⟨⟨e, first⟩, rest⟩ := List.forall_mem_cons.mp h
    obtain ⟨es, later⟩ := ih rest
    refine ⟨e :: es, ?_⟩
    rw [Spec.readAll, first, later]

theorem Spec.readAll_iff {α β : Type} {read : α → Except Error β} {texts : List α} :
    (∃ es, Spec.readAll read texts = .ok es) ↔ ∀ s ∈ texts, ∃ e, read s = .ok e := by
  refine ⟨?_, readAll_total⟩
  induction texts with
  | nil => exact fun _ s hs => absurd hs List.not_mem_nil
  | cons s texts ih =>
    rintro ⟨es, h⟩
    obtain ⟨e, rest, first, later, -⟩ := readAll_cons h
    exact List.forall_mem_cons.mpr ⟨⟨e, first⟩, ih ⟨rest, later⟩⟩

/-- The tables of a ruleset are those that a batch leaves on an empty kernel, up to the handles of rules
and the elements of the sets that are free. -/
def Ruleset.InstalledBy (free : Table → String → Bool) (batch : Batch) (r : Ruleset) : Prop :=
  ∃ e, empty.applyAll 0 batch = .ok e ∧ r.outline free = e.outline free

theorem Kernel.commit_installedBy {k k' : Kernel} {batch : Batch}
    (plain : ∀ d ∈ batch, d.byHandle = false) (h : k.commit (.flushRuleset :: batch) = (.ok (), k'))
    (free : Table → String → Bool) : k'.ruleset.InstalledBy free (.flushRuleset :: batch) :=
  Ruleset.applyAll_anywhere plain (commit_ok h)

/-- Whether a table's set of that name is one of the sets of addresses. -/
def Config.isAddressSet (config : Config) (t : Table) (name : String) : Bool :=
  t == config.filterTable && AddressSet.all.any fun which => name == Layout.addressName which

theorem Config.isAddressSet_numbered (config : Config) (which : AddressSet) :
    config.isAddressSet (which.set (Layout.numbered config)).table
      (which.set (Layout.numbered config)).name = true := by
  cases which <;> simp [isAddressSet, AddressSet.set, AddressSet.all, Layout.addressName,
    Layout.numbered, Layout.numberedFilter, Layout.ofConfig, MatchSet.addresses, MatchSet.ofKeyType,
    MatchSet.interval, MatchSet.elementTimeouts, Layout.trustedName, Layout.managerName]

namespace Layout

/-- The ports of a valid configuration are spelled correctly. -/
theorem spelled {config : Config} (valid : config.Valid) : ∃ ports, Spells config ports := by
  have listed : ∀ {specs : List String}, (∀ s ∈ specs, ∃ ports, Input.portSpec s = .ok ports) →
      ∃ elements, Spec.elements .inetService true specs = .ok elements := by
    intro specs h
    refine Spec.readAll_total fun s hs => ?_
    obtain ⟨⟨low, high⟩, ports⟩ := h s hs
    exact ⟨_, Spec.portElement_of_portSpec ports⟩
  obtain ⟨trusted, readTrusted⟩ := listed valid.trustedPorts
  obtain ⟨manager, readManager⟩ := listed valid.managerPorts
  exact ⟨⟨trusted, manager, _, _⟩, readTrusted, readManager, fun _ => httpSpecs_elements,
    fun _ => smtpSpecs_elements⟩

section Reduced

variable {l : Layout} {config : Config} {trusted : List Element} {ports : PortElements}

theorem filterDeclarations_plain : ∀ d ∈ l.filterDeclarations config trusted ports, d.byHandle = false := by
  unfold filterDeclarations
  cases config.services.http <;> cases config.services.smtp <;> simp [Declaration.byHandle]

theorem declarations_plain : ∀ d ∈ l.declarations config ports, d.byHandle = false := by
  refine List.forall_mem_append.mpr ⟨filterDeclarations_plain, ?_⟩
  simp [Declaration.byHandle]

theorem rules_plain (plan : List PlannedRule) :
    ∀ d ∈ plan.map PlannedRule.declaration, d.byHandle = false := by
  intro d hd
  obtain ⟨r, -, rfl⟩ := List.mem_map.mp hd
  rfl

/-- The sets that a cleanup takes away. -/
def withdrawnNames : List String := ["manager_ipset", "forward_ipset", "blacklist_ipset", "manager_ports"]

/-- The reduced policy declares the first sets of the policy, each of them once, and none of the others. -/
theorem filterDeclarations_sets (config : Config) (trusted : List Element) (ports : PortElements) :
    (((numberedFilter config).filterDeclarations config trusted ports).filterMap
        Declaration.setKey?).Nodup ∧
      ∀ name ∈ withdrawnNames, (config.filterTable, name) ∉
        ((numberedFilter config).filterDeclarations config trusted ports).filterMap Declaration.setKey? := by
  have all : ((numbered config).declarations config ports).filterMap Declaration.setKey? =
      ((numberedFilter config).filterDeclarations config trusted ports).filterMap Declaration.setKey? ++
        withdrawnNames.map fun name => (config.filterTable, name) := by
    unfold declarations
    rw [List.filterMap_append]
    unfold filterDeclarations
    cases config.services.http <;> cases config.services.smtp <;> rfl
  have once : (((numbered config).declarations config ports).filterMap Declaration.setKey?).Nodup :=
    declarations_setKeys
  rw [all] at once
  obtain ⟨filter, -, apart⟩ := List.nodup_append.mp once
  exact ⟨filter, fun name withdrawn declared => apart _ declared _ (List.mem_map_of_mem withdrawn) rfl⟩

theorem filterDeclarations_setKeys (config : Config) (trusted : List Element) (ports : PortElements) :
    (((numberedFilter config).filterDeclarations config trusted ports).filterMap
        Declaration.setKey?).Nodup ∧
      (config.filterTable, managerName) ∉
        ((numberedFilter config).filterDeclarations config trusted ports).filterMap Declaration.setKey? := by
  obtain ⟨once, withdrawn⟩ := filterDeclarations_sets config trusted ports
  exact ⟨once, withdrawn managerName (by decide)⟩

theorem filterDeclarations_noFlush :
    .flushRuleset ∉ (numberedFilter config).filterDeclarations config trusted ports := by
  unfold filterDeclarations
  cases config.services.http <;> cases config.services.smtp <;> simp

end Reduced

end Layout

namespace Controller

/-- The batch that installs what a cleanup leaves of the policy. -/
def cleanupBatch (config : Config) (trusted : List Element) (ports : PortElements)
    (plan : List PlannedRule) : Batch :=
  .flushRuleset :: ((Layout.numberedFilter config).filterDeclarations config trusted ports ++
    plan.map PlannedRule.declaration)

theorem elementsOrNone_eq (set : MatchSet) (c : Controller Kernel) :
    elementsOrNone set c = (.ok ((c.sink.elements set).toOption.getD []), c) := by
  unfold elementsOrNone onSink Action.on
  dsimp only [Sink.elements]
  cases c.sink.elements set with
  | ok es => rfl
  | error e => rfl

/-- A cleanup is one batch, which takes over the elements of the trusted set. -/
theorem cleanup_ok {c₀ c : Controller Kernel} (configured : c₀.Configured)
    (enabled : c₀.config.enabled = true) (h : cleanup c₀ = (.ok (), c)) :
    ∃ ports plan, Layout.Spells c₀.config ports ∧
      (c₀.compiler (Layout.numberedFilter c₀.config)).cleanup = .ok plan ∧
      (Layout.ofConfig c₀.config).trusted.checkElements
        ((c₀.sink.elements c₀.layout.trusted).toOption.getD []) = .ok () ∧
      c₀.sink.commit (cleanupBatch c₀.config ((c₀.sink.elements c₀.layout.trusted).toOption.getD []) ports
        plan) = (.ok (), c.sink) ∧
      c = { c₀ with layout := Layout.numberedFilter c₀.config, applied := false, sink := c.sink } := by
  obtain ⟨ports, spells⟩ := Layout.spelled (Config.validate_ok configured.valid)
  unfold cleanup at h
  rw [enabled, Bool.not_true, if_neg Bool.false_ne_true, configured.template] at h
  obtain ⟨inside, -, -⟩ := Namespace.run_ok h
  obtain ⟨trusted, c₁, helements, rest₁⟩ := Action.bind_ok inside
  rw [elementsOrNone_eq] at helements
  cases helements
  obtain ⟨layout, c₂, htransact, rest₂⟩ := Action.bind_ok rest₁
  cases rest₂
  obtain ⟨p, hinstall, rfl⟩ := Action.on_ok htransact
  obtain ⟨p₁, plan, hdeclare, planned, committed⟩ := install_ok hinstall
  obtain ⟨rfl, checked, sink, reset, batch, -⟩ := Layout.declareReduced_ok spells hdeclare
  have commit := committed reset (by rw [batch]; exact List.cons_ne_nil _ _)
  rw [batch, sink] at commit
  refine ⟨ports, plan, spells, planned, MatchSet.checkElements_ok.mpr fun e he => ?_, commit, rfl⟩
  exact MatchSet.checkElements_ok.mp checked e he

theorem start_initial {σ : Type} {config : Config} {sink : σ} {host : Discovery.Host} {c : Controller σ}
    (h : start config sink host = .ok c) :
    c.config = config ∧ c.layout = Layout.ofConfig c.config ∧ c.applied = false ∧ c.sink = sink := by
  unfold start at h
  split at h
  · cases h
  · split at h
    · cases h
    · cases h
      exact ⟨rfl, rfl, rfl, rfl⟩

/-- Before the policy is applied, its address sets are not there to be changed. -/
theorem updateSet_idle {c : Controller Kernel} (idle : c.applied = false) (which : AddressSet)
    (remove add : List String) : updateSet which remove add c = (.ok (), c) := by
  unfold updateSet
  rw [idle]
  rfl

theorem ban_idle {c : Controller Kernel} (idle : c.applied = false) (specs : List String)
    (timeout : Option Duration) : ban specs timeout c = (.ok (), c) := by
  unfold ban
  rw [idle]
  rfl

/-- What an operation can do to a controller. -/
inductive Did (c : Controller Kernel) : Controller Kernel → Prop where
  | nothing {k : Kernel} (same : k.ruleset = c.sink.ruleset) : Did c { c with sink := k }
  | applied {c' : Controller Kernel} (enabled : c.config.enabled = true)
    (done : apply c = (.ok (), c')) : Did c c'
  | cleaned {c' : Controller Kernel} (enabled : c.config.enabled = true)
    (done : cleanup c = (.ok (), c')) : Did c c'
  | refilled {c' : Controller Kernel} {which : AddressSet} (present : c.applied = true)
    (change : Refilled (which.set c.layout) c c') : Did c c'
  | adopted (absent : c.applied = false)
    (managed : c.sink.hasSet c.template.filter Layout.managerName = true) :
    Did c { c with layout := c.template, applied := true }

namespace Did

variable {c c' : Controller Kernel}

theorem refl (c : Controller Kernel) : Did c c := .nothing rfl

theorem apply (done : Controller.apply c = (.ok (), c')) : Did c c' := by
  cases enabled : c.config.enabled with
  | true => exact .applied enabled done
  | false =>
    unfold Controller.apply at done
    rw [enabled] at done
    cases done
    exact .refl c

theorem cleanup (done : Controller.cleanup c = (.ok (), c')) : Did c c' := by
  cases enabled : c.config.enabled with
  | true => exact .cleaned enabled done
  | false =>
    unfold Controller.cleanup at done
    rw [enabled] at done
    cases done
    exact .refl c

theorem update {which : AddressSet} {remove add : List String}
    (done : updateSet which remove add c = (.ok (), c')) : Did c c' := by
  cases present : c.applied with
  | true =>
    have change := updateSet_refilled which remove add c
    rw [done] at change
    exact .refilled present change
  | false =>
    cases (updateSet_idle present which remove add).symm.trans done
    exact .refl c

theorem ban {specs : List String} {timeout : Option Duration}
    (done : Controller.ban specs timeout c = (.ok (), c')) : Did c c' := by
  cases present : c.applied with
  | true =>
    have change := ban_refilled specs timeout c
    rw [done] at change
    exact .refilled present change
  | false =>
    cases (ban_idle present specs timeout).symm.trans done
    exact .refl c

theorem attach {found : Bool} (done : Controller.attach c = (.ok found, c')) : Did c c' := by
  cases present : c.applied with
  | true =>
    unfold Controller.attach at done
    rw [present] at done
    cases done
    exact .refl c
  | false =>
    unfold Controller.attach at done
    rw [present] at done
    obtain ⟨inside, -, -⟩ := Namespace.run_ok done
    have answer : ∀ {name : String} {has : Bool} {c₁ : Controller Kernel},
        onSink (.ofState (Sink.hasSet c.template.filter name)) c = (.ok has, c₁) →
          c.sink.hasSet c.template.filter name = has ∧ c = c₁ := by
      intro name has c₁ asked
      cases asked
      exact ⟨rfl, rfl⟩
    obtain ⟨hasTrusted, c₁, trusted, rest⟩ := Action.bind_ok inside
    obtain ⟨-, rfl⟩ := answer trusted
    cases hasTrusted with
    | false =>
      cases rest
      exact .refl c
    | true =>
      obtain ⟨hasManager, c₂, manager, last⟩ := Action.bind_ok rest
      obtain ⟨managed, rfl⟩ := answer manager
      cases hasManager with
      | false =>
        cases last
        exact .refl c
      | true =>
        cases last
        exact .adopted present managed

theorem ran {op : Operation} {answer : Option Bool} (done : op.run c = (.ok answer, c')) : Did c c' := by
  cases op with
  | apply =>
    obtain ⟨_, c₁, ran, rest⟩ := Action.bind_ok done
    cases rest
    exact .apply ran
  | cleanup =>
    obtain ⟨_, c₁, ran, rest⟩ := Action.bind_ok done
    cases rest
    exact .cleanup ran
  | update which remove add =>
    obtain ⟨_, c₁, ran, rest⟩ := Action.bind_ok done
    cases rest
    exact .update ran
  | ban specs timeout =>
    obtain ⟨_, c₁, ran, rest⟩ := Action.bind_ok done
    cases rest
    exact .ban ran
  | unban specs =>
    obtain ⟨_, c₁, ran, rest⟩ := Action.bind_ok done
    cases rest
    exact .update ran
  | attach =>
    obtain ⟨found, c₁, ran, rest⟩ := Action.bind_ok done
    cases rest
    exact .attach ran

/-- An operation that fails has done nothing, or what it does on a host that lets it leave its namespace. -/
theorem run (op : Operation) (c : Controller Kernel) :
    ∃ host, Did { c with host } { (op.run c).2 with host } := by
  cases h : op.run c with
  | mk r c' =>
    cases r with
    | ok answer =>
      have kept : c'.host = c.host := by
        have kept := (op.run_guarded c).host
        rwa [h] at kept
      refine ⟨c.host, ?_⟩
      show Did c { c' with host := c.host }
      rw [← kept]
      exact .ran h
    | error e =>
      rcases (op.run_guarded c).error h with ⟨k, spared, rfl⟩ | ⟨-, entered, -, answer, done⟩
      · refine ⟨c.host, ?_⟩
        cases spared with
        | same => exact .nothing rfl
        | used => exact .nothing rfl
      · let host : Discovery.Host := { c.host with namespaces := { c.host.namespaces with releases := true } }
        exact ⟨host, .ran (done host entered (.inr rfl))⟩

end Did

/-- A controller on its way from the start: what is installed agrees with what it keeps of it. -/
structure Tracked (c₀ c : Controller Kernel) : Prop where
  state : c = { c₀ with host := c.host, layout := c.layout, applied := c.applied, sink := c.sink }
  present : c.applied = true → c.layout = Layout.numbered c₀.config ∧
    ∃ ports plan, Layout.Spells c₀.config ports ∧
      (c₀.compiler (Layout.numbered c₀.config)).baseline = .ok plan ∧
      c.sink.ruleset.InstalledBy c₀.config.isAddressSet (baselineBatch c₀.config ports plan)
  absent : c.applied = false → c.sink.hasSet c₀.config.filterTable Layout.managerName = false ∧
    (c.sink.ruleset.tables = [] ∨
      ∃ trusted ports plan, Layout.Spells c₀.config ports ∧
        (c₀.compiler (Layout.numberedFilter c₀.config)).cleanup = .ok plan ∧
        c.sink.ruleset.InstalledBy (fun _ _ => false) (cleanupBatch c₀.config trusted ports plan))

namespace Tracked

variable {c₀ c c' : Controller Kernel}

theorem start {config : Config} {host : Discovery.Host}
    (h : Controller.start config .empty host = .ok c) : Tracked c c := by
  obtain ⟨-, -, idle, sink⟩ := start_initial h
  refine ⟨rfl, ?_, ?_⟩
  · intro applied
    rw [idle] at applied
    cases applied
  · intro _
    rw [sink]
    exact ⟨rfl, .inl rfl⟩

variable (tracked : Tracked c₀ c)
include tracked

theorem config : c.config = c₀.config := by rw [tracked.state]

theorem compiler (l : Layout) : c.compiler l = c₀.compiler l := by
  rw [tracked.state]
  rfl

theorem configured (configured : c₀.Configured) : c.Configured := by
  rw [tracked.state]
  exact ⟨configured.valid, configured.template⟩

theorem onHost (host : Discovery.Host) : Tracked c₀ { c with host } := by
  refine ⟨?_, tracked.present, tracked.absent⟩
  rw [tracked.state]

theorem onKernel {k : Kernel} (same : k.ruleset = c.sink.ruleset) :
    Tracked c₀ { c with sink := k } := by
  refine ⟨?_, ?_, ?_⟩
  · rw [tracked.state]
  · show c.applied = true → _ ∧ ∃ ports plan, _ ∧ _ ∧ k.ruleset.InstalledBy _ _
    rw [same]
    exact tracked.present
  · show c.applied = false → k.hasSet _ _ = false ∧ (k.ruleset.tables = [] ∨
      ∃ trusted ports plan, _ ∧ _ ∧ k.ruleset.InstalledBy _ _)
    rw [Kernel.hasSet, same]
    exact tracked.absent

theorem applied (configured : c₀.Configured) (enabled : c.config.enabled = true)
    (done : apply c = (.ok (), c')) : Tracked c₀ c' := by
  obtain ⟨ports, plan, spells, planned, commit, state⟩ :=
    apply_ok (tracked.configured configured) enabled done
  rw [tracked.config] at spells planned commit state
  rw [tracked.compiler] at planned
  have plain : ∀ d ∈ (Layout.numbered c₀.config).declarations c₀.config ports ++
      plan.map PlannedRule.declaration, d.byHandle = false :=
    List.forall_mem_append.mpr ⟨Layout.declarations_plain, Layout.rules_plain plan⟩
  have installed := Kernel.commit_installedBy plain commit c₀.config.isAddressSet
  rw [state]
  refine ⟨?_, fun _ => ⟨rfl, ports, plan, spells, planned, installed⟩, ?_⟩
  · rw [tracked.state]
  · intro idle
    cases idle

theorem cleaned (configured : c₀.Configured) (enabled : c.config.enabled = true)
    (done : cleanup c = (.ok (), c')) : Tracked c₀ c' := by
  obtain ⟨ports, plan, spells, planned, -, commit, state⟩ :=
    cleanup_ok (tracked.configured configured) enabled done
  generalize (c.sink.elements c.layout.trusted).toOption.getD [] = trusted at commit
  rw [tracked.config] at spells planned commit state
  rw [tracked.compiler] at planned
  have plain : ∀ d ∈ (Layout.numberedFilter c₀.config).filterDeclarations c₀.config trusted ports ++
      plan.map PlannedRule.declaration, d.byHandle = false :=
    List.forall_mem_append.mpr ⟨Layout.filterDeclarations_plain, Layout.rules_plain plan⟩
  have installed := Kernel.commit_installedBy plain commit fun _ _ => false
  -- Without a set of managers a later `attach` has nothing to take over.
  have unmanaged : c'.sink.ruleset.set? c₀.config.filterTable Layout.managerName = none := by
    rw [(Ruleset.applyAll_flush (Kernel.commit_ok commit)).2.1, Ruleset.onSet_append,
      Ruleset.onSet_other Layout.filterDeclarations_noFlush
        (Layout.filterDeclarations_setKeys c₀.config trusted ports).2, Ruleset.onSet_rules]
  rw [state]
  refine ⟨?_, ?_, fun _ => ⟨?_, .inr ⟨trusted, ports, plan, spells, planned, installed⟩⟩⟩
  · rw [tracked.state]
  · intro applied
    cases applied
  · rw [Kernel.hasSet, unmanaged]
    rfl

theorem refilled {which : AddressSet} (applied : c.applied = true)
    (change : Refilled (which.set c.layout) c c') : Tracked c₀ c' := by
  obtain ⟨layout, ports, plan, spells, planned, e, made, outline⟩ := tracked.present applied
  obtain ⟨state, changed⟩ := change
  rw [layout] at changed
  -- An outline that leaves out the elements of the set does not see the change.
  have outline' := changed.outline c₀.config.isAddressSet (c₀.config.isAddressSet_numbered which)
  rw [state]
  refine ⟨?_, fun _ => ⟨layout, ports, plan, spells, planned, e, made, outline'.trans outline⟩, ?_⟩
  · rw [tracked.state]
  · intro idle
    rw [show c.applied = false from idle] at applied
    cases applied

theorem did (configured : c₀.Configured) (h : Did c c') : Tracked c₀ c' := by
  cases h with
  | nothing same => exact tracked.onKernel same
  | applied enabled done => exact tracked.applied configured enabled done
  | cleaned enabled done => exact tracked.cleaned configured enabled done
  | refilled present change => exact tracked.refilled present change
  | adopted absent managed =>
    have filter : c.template.filter = c₀.config.filterTable := by
      rw [tracked.state]
      exact congrArg Layout.filter configured.template
    rw [filter, (tracked.absent absent).1] at managed
    cases managed

/-- No operation, whether it succeeds or fails, parts what is installed from what is kept of it. -/
theorem ran (configured : c₀.Configured) (op : Operation) : Tracked c₀ (op.run c).2 := by
  obtain ⟨host, did⟩ := Did.run op c
  exact ((tracked.onHost host).did configured did).onHost (op.run c).2.host

end Tracked

end Controller

/-- What happens in the life of a controller: operations, a kernel that refuses the next batch, and changes
of what the host allows of namespaces. -/
inductive Event where
  | run (op : Operation)
  | failNext (reason : String)
  | namespaces (allowed : Namespaces)
  deriving DecidableEq, Repr

namespace Event

/-- The controller after an event, whether an operation succeeds or fails. -/
def step (event : Event) (c : Controller Kernel) : Controller Kernel :=
  match event with
  | .run op => (op.run c).2
  | .failNext reason => { c with sink := c.sink.failing reason }
  | .namespaces allowed => { c with host := { c.host with namespaces := allowed } }

def runAll : List Event → Controller Kernel → Controller Kernel
  | [], c => c
  | event :: events, c => runAll events (event.step c)

variable {c₀ c : Controller Kernel}

theorem step_tracked (configured : c₀.Configured) (tracked : c₀.Tracked c) (event : Event) :
    c₀.Tracked (event.step c) := by
  cases event with
  | run op => exact tracked.ran configured op
  | failNext reason => exact tracked.onKernel rfl
  | namespaces allowed => exact tracked.onHost _

theorem runAll_tracked (configured : c₀.Configured) (tracked : c₀.Tracked c) (events : List Event) :
    c₀.Tracked (runAll events c) := by
  induction events generalizing c with
  | nil => exact tracked
  | cons event events ih => exact ih (step_tracked configured tracked event)

/-- At every point of every run that starts with an empty kernel, what is installed is the batch of the
policy if the policy is applied, where only the elements of the address sets are free, and the layout is the
one of that batch. If it is not applied, nothing is installed or the batch of a cleanup, and changes of the
address sets succeed without a trace. -/
theorem runAll_installed_by {config : Config} {host : Discovery.Host}
    (started : Controller.start config .empty host = .ok c₀) (events : List Event) :
    ((runAll events c₀).applied = true → (runAll events c₀).layout = Layout.numbered config ∧
      ∃ ports plan, Layout.Spells config ports ∧
        (c₀.compiler (Layout.numbered config)).baseline = .ok plan ∧
        (runAll events c₀).sink.ruleset.InstalledBy config.isAddressSet
          (Controller.baselineBatch config ports plan)) ∧
    ((runAll events c₀).applied = false →
      ((runAll events c₀).sink.ruleset.tables = [] ∨
        ∃ trusted ports plan, Layout.Spells config ports ∧
          (c₀.compiler (Layout.numberedFilter config)).cleanup = .ok plan ∧
          (runAll events c₀).sink.ruleset.InstalledBy (fun _ _ => false)
            (Controller.cleanupBatch config trusted ports plan)) ∧
      ∀ (which : AddressSet) (remove add specs : List String) (timeout : Option Duration),
        Controller.updateSet which remove add (runAll events c₀) = (.ok (), runAll events c₀) ∧
        Controller.ban specs timeout (runAll events c₀) = (.ok (), runAll events c₀) ∧
        Controller.unban specs (runAll events c₀) = (.ok (), runAll events c₀)) := by
  obtain ⟨own, -⟩ := Controller.start_initial started
  have tracked := runAll_tracked (Controller.start_configured started) (.start started) events
  rw [← own]
  refine ⟨tracked.present, fun idle => ⟨(tracked.absent idle).2, ?_⟩⟩
  intro which remove add specs timeout
  exact ⟨Controller.updateSet_idle idle which remove add, Controller.ban_idle idle specs timeout,
    Controller.updateSet_idle idle .blacklist specs []⟩

/-- The gateway after it has been cleaned up and set up again, with a failure in between. -/
theorem runAll_installed_gateway :
    Controller.start Controller.gateway.config .empty Controller.gateway.host =
        .ok Controller.gateway ∧
      ∃ ports plan, Layout.Spells Controller.gateway.config ports ∧
        (Controller.gateway.compiler (Layout.numbered Controller.gateway.config)).baseline = .ok plan ∧
        (runAll [.run .apply, .run (.update .trusted [] ["198.51.100.7"]), .failNext "busy",
          .run .cleanup, .run .cleanup, .run .apply] Controller.gateway).sink.ruleset.InstalledBy
            Controller.gateway.config.isAddressSet
            (Controller.baselineBatch Controller.gateway.config ports plan) :=
  ⟨Controller.gateway_started,
    ((runAll_installed_by Controller.gateway_started _).1 (by decide +kernel)).2⟩

end Event
end Firewall
