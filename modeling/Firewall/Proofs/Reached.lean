import Firewall.Proofs.Runs

namespace Firewall

namespace Layout

/-- The layouts that a controller of a configuration can have. -/
inductive Of (config : Config) : Layout → Prop where
  | template : Of config (ofConfig config)
  | numbered : Of config (numbered config)
  | reduced : Of config (numberedFilter config)

namespace Of

variable {config : Config} {l : Layout}

theorem address (of : Of config l) (which : AddressSet) :
    ((which.set l).table, (which.set l).name) = (config.filterTable, addressName which) := by
  cases of <;> cases which <;> rfl

theorem trusted_key (of : Of config l) :
    l.trusted.table = config.filterTable ∧ l.trusted.name = trustedName :=
  Prod.mk.inj (of.address .trusted)

theorem trusted_apart (of : Of config l) {which : AddressSet} (other : which ≠ .trusted) :
    (config.filterTable, trustedName) ≠ ((which.set l).table, (which.set l).name) := by
  rw [of.address]
  intro key
  have names : trustedName = addressName which := (Prod.mk.inj key).2
  revert other names
  cases which <;> decide

theorem trusted_check (of : Of config l) (e : Element) :
    l.trusted.checkElement e = (ofConfig config).trusted.checkElement e := by
  cases of <;> rfl

end Of

end Layout

namespace Controller

/-- A controller that has done nothing yet, whatever outside interface and address it was told of. -/
structure Fresh (config : Config) (k : Kernel) (c : Controller Kernel) : Prop where
  own : c.config = config
  configured : c.Configured
  layout : c.layout = c.template
  idle : c.applied = false
  sink : c.sink = k

theorem start_fresh {config : Config} {k : Kernel} {host : Discovery.Host} {c : Controller Kernel}
    (h : start config k host = .ok c) : Fresh config k c := by
  have configured := start_configured h
  obtain ⟨own, layout, idle, sink⟩ := start_initial h
  exact ⟨own, configured, layout.trans configured.template.symm, idle, sink⟩

/-- What a controller of a configuration keeps to, whatever it has found installed. -/
structure Kept (config : Config) (c : Controller Kernel) : Prop where
  own : c.config = config
  configured : c.Configured
  layout : Layout.Of config c.layout
  /-- Trusted elements have passed the check of their set, as a cleanup has to declare them again. -/
  checked : ∀ s, c.sink.ruleset.set? config.filterTable Layout.trustedName = some s →
    (Layout.ofConfig config).trusted.checkElements s.elements = .ok ()

namespace Kept

variable {config : Config} {c c' : Controller Kernel}

theorem start {k : Kernel} (checked : ∀ s, k.ruleset.set? config.filterTable Layout.trustedName = some s →
      (Layout.ofConfig config).trusted.checkElements s.elements = .ok ())
    (fresh : Fresh config k c) : Kept config c := by
  obtain ⟨rfl, configured, layout, -, rfl⟩ := fresh
  refine ⟨rfl, configured, ?_, checked⟩
  rw [layout, configured.template]
  exact .template

theorem onHost (kept : Kept config c) (host : Discovery.Host) : Kept config { c with host } :=
  ⟨kept.own, ⟨kept.configured.valid, kept.configured.template⟩, kept.layout, kept.checked⟩

theorem onKernel (kept : Kept config c) {k : Kernel} (same : k.ruleset = c.sink.ruleset) :
    Kept config { c with sink := k } := by
  refine ⟨kept.own, ⟨kept.configured.valid, kept.configured.template⟩, kept.layout, ?_⟩
  show ∀ s, k.ruleset.set? _ _ = some s → _
  rw [same]
  exact kept.checked

theorem applied (kept : Kept config c) (enabled : c.config.enabled = true)
    (done : apply c = (.ok (), c')) : Kept config c' := by
  obtain ⟨rfl, configured, -, -⟩ := kept
  obtain ⟨ports, plan, -, -, commit, state⟩ := apply_ok configured enabled done
  have trusted := Ruleset.applyAll_declared Layout.declarations_noFlush Layout.declarations_setKeys
    (Kernel.commit_ok commit) (Layout.mem_declarations_addresses .trusted)
  rw [state]
  refine ⟨rfl, ⟨configured.valid, configured.template⟩, .numbered, fun s found => ?_⟩
  cases (show _ = some s from found).symm.trans trusted
  rfl

/-- The trusted elements are the ones from before, which the transaction has checked again. -/
theorem cleaned (kept : Kept config c) (enabled : c.config.enabled = true)
    (done : cleanup c = (.ok (), c')) : Kept config c' := by
  obtain ⟨rfl, configured, -, -⟩ := kept
  obtain ⟨ports, plan, -, -, checked, commit, state⟩ := cleanup_ok configured enabled done
  generalize (c.sink.elements c.layout.trusted).toOption.getD [] = trusted at checked commit
  have listed : .addSet (Layout.numberedFilter c.config).trusted trusted ∈
      (Layout.numberedFilter c.config).filterDeclarations c.config trusted ports := by
    simp [Layout.filterDeclarations]
  have there := Ruleset.applyAll_declared Layout.filterDeclarations_noFlush
    (Layout.filterDeclarations_setKeys c.config trusted ports).1 (Kernel.commit_ok commit) listed
  rw [state]
  refine ⟨rfl, ⟨configured.valid, configured.template⟩, .reduced, fun s found => ?_⟩
  cases (show _ = some s from found).symm.trans there
  refine MatchSet.checkElements_ok.mpr fun e he => ?_
  rcases mem_addElements he with old | new
  · cases old
  · exact MatchSet.checkElements_ok.mp checked e new

/-- What is added to the trusted sources is checked, and no other change gets there. -/
theorem refilled (kept : Kept config c) {which : AddressSet}
    (change : Refilled (which.set c.layout) c c') : Kept config c' := by
  obtain ⟨state, changed⟩ := change
  obtain ⟨table, name⟩ := kept.layout.trusted_key
  have checked : ∀ s, c'.sink.ruleset.set? config.filterTable Layout.trustedName = some s →
      (Layout.ofConfig config).trusted.checkElements s.elements = .ok () := by
    intro s found
    by_cases same : which = .trusted
    · subst same
      rw [← table, ← name] at found
      refine MatchSet.checkElements_ok.mpr fun e he => ?_
      rcases changed.checked s found e he with checked | ⟨s', before, old⟩
      · rw [← kept.layout.trusted_check]
        exact checked
      · rw [AddressSet.set, table, name] at before
        exact MatchSet.checkElements_ok.mp (kept.checked s' before) e old
    · rw [changed.others _ _ (kept.layout.trusted_apart same)] at found
      exact kept.checked s found
  rw [state]
  exact ⟨kept.own, ⟨kept.configured.valid, kept.configured.template⟩, kept.layout, checked⟩

theorem did (kept : Kept config c) (h : Did c c') : Kept config c' := by
  cases h with
  | nothing same => exact kept.onKernel same
  | applied enabled done => exact kept.applied enabled done
  | cleaned enabled done => exact kept.cleaned enabled done
  | refilled present change => exact kept.refilled change
  | adopted absent managed =>
    refine ⟨kept.own, ⟨kept.configured.valid, kept.configured.template⟩, ?_, kept.checked⟩
    show Layout.Of config c.template
    rw [kept.configured.template, kept.own]
    exact .template

theorem step (kept : Kept config c) (event : Event) : Kept config (event.step c) := by
  cases event with
  | run op =>
    obtain ⟨host, did⟩ := Did.run op c
    exact ((kept.onHost host).did did).onHost (op.run c).2.host
  | failNext reason => exact kept.onKernel rfl
  | namespaces allowed => exact kept.onHost _

end Kept

/-- The controllers that a configuration can lead to from an empty kernel: what one of them leaves on the
kernel, the next one can find there. -/
inductive Reached (config : Config) : Controller Kernel → Prop where
  | first {c : Controller Kernel} (fresh : Fresh config .empty c) : Reached config c
  | step {c : Controller Kernel} (before : Reached config c) (event : Event) :
    Reached config (event.step c)
  | again {c c' : Controller Kernel} (before : Reached config c) (fresh : Fresh config c.sink c') :
    Reached config c'

theorem Reached.runAll {config : Config} {c : Controller Kernel} (reached : Reached config c)
    (events : List Event) : Reached config (Event.runAll events c) := by
  induction events generalizing c with
  | nil => exact reached
  | cons event events ih => exact ih (reached.step event)

theorem Reached.kept {config : Config} {c : Controller Kernel} (reached : Reached config c) :
    Kept config c := by
  induction reached with
  | first fresh =>
    refine .start (fun s found => ?_) fresh
    cases found
  | step before event ih => exact ih.step event
  | again before fresh ih => exact .start ih.checked fresh

/-- What a cleanup finds in the set of trusted sources can be declared again. -/
theorem Kept.elements_checked {config : Config} {c : Controller Kernel} (kept : Kept config c) :
    (Layout.ofConfig config).trusted.checkElements
      ((c.sink.elements c.layout.trusted).toOption.getD []) = .ok () := by
  obtain ⟨table, name⟩ := kept.layout.trusted_key
  rw [Kernel.elements, table, name]
  cases found : c.sink.ruleset.set? config.filterTable Layout.trustedName with
  | none => rfl
  | some s => exact kept.checked s found

end Controller
end Firewall
