import Firewall.Proofs.Agreement

namespace Firewall

namespace Controller

variable {c₀ c : Controller Kernel}

theorem start_on {config : Config} {host : Discovery.Host} {k : Kernel}
    (started : start config k host = .ok c) (k' : Kernel) :
    start config k' host = .ok { c with sink := k' } := by
  unfold start at started ⊢
  split at started
  · cases started
  · rename_i valid
    split at started
    · cases started
    · rename_i interface address route
      cases started
      rfl

/-- An outline leaves every set where it is. -/
theorem hasSet_outline {k : Kernel} {free : Table → String → Bool} {r : Ruleset}
    (same : k.ruleset.outline free = r.outline free) (t : Table) (name : String) :
    k.hasSet t name = (r.set? t name).isSome := by
  have views := congrArg (fun r => (r.set? t name).isSome) same
  rw [Kernel.hasSet]
  simpa [Ruleset.outline_set?] using views

/-- While the policy is applied, its address sets are installed under their names. -/
theorem Tracked.holds (tracked : Tracked c₀ c) (applied : c.applied = true) (which : AddressSet) :
    c.sink.hasSet c₀.config.filterTable (Layout.addressName which) = true := by
  obtain ⟨-, ports, plan, -, -, e, made, outline⟩ := tracked.present applied
  have declared := Ruleset.applyAll_declared Layout.declarations_noFlush Layout.declarations_setKeys made
    (Layout.mem_declarations_addresses which)
  obtain ⟨table, name⟩ := Prod.mk.inj (Layout.numbered_address (c := c₀.config) which)
  rw [table, name] at declared
  rw [hasSet_outline outline, declared]
  rfl

theorem attach_eq (idle : c.applied = false) (current : c.config.networkNamespace = "") :
    attach c =
      if c.sink.hasSet c.template.filter Layout.trustedName = true ∧
          c.sink.hasSet c.template.filter Layout.managerName = true then
        (.ok true, { c with layout := c.template, applied := true })
      else (.ok false, c) := by
  have asked : ∀ name, onSink (.ofState (Sink.hasSet c.template.filter name)) c =
      (.ok (c.sink.hasSet c.template.filter name), c) := fun _ => rfl
  unfold attach
  rw [idle, if_neg Bool.false_ne_true, inNamespace_current current, Action.bind_eq (asked _)]
  cases c.sink.hasSet c.template.filter Layout.trustedName with
  | false => rfl
  | true =>
    show (onSink _ >>= _) c = _
    rw [Action.bind_eq (asked _)]
    cases c.sink.hasSet c.template.filter Layout.managerName with
    | false => rfl
    | true => rfl

end Controller

namespace Event

open Controller

variable {c₀ c : Controller Kernel}

/-- A controller that is started on what another one has left takes over the policy exactly if it is applied,
whatever has happened before, and gives the answers from then on that the other one would give, with the same
ruleset behind them. -/
theorem attach_resumes {config : Config} {host : Discovery.Host}
    (started : Controller.start config .empty host = .ok c₀) (current : config.networkNamespace = "")
    (events : List Event) :
    ∃ b b', Controller.start config (runAll events c₀).sink host = .ok b ∧
      attach b = (.ok (runAll events c₀).applied, b') ∧
      ((runAll events c₀).applied = true → ∀ calls : List Call,
        (Call.runAll calls (runAll events c₀)).1 = (Call.runAll calls b').1 ∧
        (Call.runAll calls (runAll events c₀)).2.sink.ruleset =
          (Call.runAll calls b').2.sink.ruleset) := by
  obtain ⟨own, -, idle, -⟩ := start_initial started
  have configured := start_configured started
  have tracked := runAll_tracked configured (.start started) events
  have current₀ : c₀.config.networkNamespace = "" := by rw [own, current]
  have current : (runAll events c₀).config.networkNamespace = "" := by rw [tracked.config, current₀]
  have filter : c₀.template.filter = c₀.config.filterTable := by
    rw [configured.template]
    rfl
  generalize runAll events c₀ = a at tracked current ⊢
  refine ⟨{ c₀ with sink := a.sink }, ?_⟩
  have asked := attach_eq (c := { c₀ with sink := a.sink }) idle current₀
  simp only [filter] at asked
  cases applied : a.applied with
  | true =>
    have trusted := tracked.holds applied .trusted
    have manager := tracked.holds applied .manager
    rw [if_pos ⟨trusted, manager⟩] at asked
    refine ⟨_, start_on started a.sink, asked, fun _ calls => ?_⟩
    -- The sets of one layout have numbers and those of the other have none; their names are the same.
    have layout := (tracked.present applied).1
    have alike : a.Alike { c₀ with layout := c₀.template, applied := true, sink := a.sink } := by
      refine ⟨?_, current, fun which => ?_, rfl, rfl⟩
      · rw [tracked.state, applied]
      · rw [layout, configured.template]
        cases which <;> exact ⟨_, rfl⟩
    obtain ⟨same, left⟩ := Call.runAll_agree calls alike
    exact ⟨same, left.sink.ruleset⟩
  | false =>
    have manager := (tracked.absent applied).1
    rw [if_neg fun both => Bool.false_ne_true (manager.symm.trans both.2)] at asked
    exact ⟨_, start_on started a.sink, asked, fun present => absurd present Bool.false_ne_true⟩

def interrupted : List Event :=
  [.run .apply, .run (.update .trusted [] ["198.51.100.7"]), .failNext "busy", .run .cleanup]

theorem attach_resumes_interrupted :
    gateway.config.networkNamespace = "" ∧ (runAll interrupted gateway).applied = true ∧
      ∃ b b', Controller.start gateway.config (runAll interrupted gateway).sink gateway.host = .ok b ∧
        attach b = (.ok true, b') ∧ ∀ calls : List Call,
          (Call.runAll calls (runAll interrupted gateway)).1 = (Call.runAll calls b').1 ∧
          (Call.runAll calls (runAll interrupted gateway)).2.sink.ruleset =
            (Call.runAll calls b').2.sink.ruleset := by
  have applied : (runAll interrupted gateway).applied = true := by decide +kernel
  obtain ⟨b, b', again, found, resumes⟩ := attach_resumes gateway_started rfl interrupted
  rw [applied] at found
  exact ⟨rfl, applied, b, b', again, found, resumes applied⟩

end Event

end Firewall
