import Firewall.Proofs.Installed
import Firewall.Proofs.Outline

namespace Firewall

/-- An action keeps what holds of the state, also when it fails. -/
def Action.Keeps {σ α : Type} (I : σ → Prop) (a : Action σ α) : Prop := ∀ s, I s → I (a s).2

namespace Action.Keeps

variable {σ τ α β : Type} {I : σ → Prop}

theorem pure (a : α) : Keeps I (Pure.pure a : Action σ α) := fun _ h => h

theorem ofExcept (r : Except Error α) : Keeps I (Action.ofExcept r) := by
  intro s h
  cases r with
  | ok a => exact h
  | error e => exact h

/-- What follows a check can rely on it. -/
theorem checked {r : Except Error α} {f : α → Action σ β} (hf : ∀ a, r = .ok a → Keeps I (f a)) :
    Keeps I (Action.ofExcept r >>= f) := by
  intro s h
  cases r with
  | ok a => exact hf a rfl s h
  | error e => exact h

theorem bind {x : Action σ α} {f : α → Action σ β} (hx : Keeps I x) (hf : ∀ a, Keeps I (f a)) :
    Keeps I (x >>= f) := by
  intro s h
  have first := hx s h
  show I (andThen x f s).2
  unfold andThen
  cases hr : x s with
  | mk r s₁ =>
    rw [hr] at first
    cases r with
    | ok a => exact hf a s₁ first
    | error e => exact first

theorem on {J : τ → Prop} {get : τ → σ} {set : τ → σ → τ} {a : Action σ α} (ha : Keeps I a)
    (inside : ∀ t, J t → I (get t)) (outside : ∀ t s, J t → I s → J (set t s)) :
    Keeps J (a.on get set) := by
  intro t h
  exact outside t _ h (ha _ (inside t h))

theorem namespaced {host : Namespaces} {name : String} {a : Action σ α} (ha : Keeps I a) :
    Keeps I (Namespace.run host name a) := by
  intro s h
  rcases Namespace.run_state host name a s with same | inside
  · rw [same]
    exact h
  · rw [inside]
    exact ha s h

end Action.Keeps

theorem MatchSet.checkElements_ok {set : MatchSet} {elements : List Element} :
    set.checkElements elements = .ok () ↔ ∀ e ∈ elements, set.checkElement e = .ok () := by
  induction elements with
  | nil => exact ⟨fun _ e he => absurd he List.not_mem_nil, fun _ => rfl⟩
  | cons e es ih =>
    rw [checkElements, List.forall_mem_cons, ← ih]
    cases set.checkElement e with
    | ok _ => simp
    | error fault => simp

theorem mem_addElements {current new : List Element} {e : Element}
    (h : e ∈ addElements current new) : e ∈ current ∨ e ∈ new := by
  induction new generalizing current with
  | nil => exact .inl h
  | cons d ds ih =>
    rcases ih h with before | later
    · split at before
      · exact .inl before
      · rcases List.mem_append.mp before with old | new
        · exact .inl old
        · exact .inr (List.mem_singleton.mp new ▸ List.mem_cons_self)
    · exact .inr (List.mem_cons_of_mem d later)

theorem mem_removeElements {current gone : List Element} {e : Element}
    (h : e ∈ removeElements current gone) : e ∈ current := (List.mem_filter.mp h).1

namespace Ruleset

/-- Rulesets that differ at most in the elements of one set, whose new elements have passed its check. -/
structure Refilled (set : MatchSet) (r r' : Ruleset) : Prop where
  ordered : r.Ordered → r'.Ordered
  chains : ∀ t name, r'.chain? t name = r.chain? t name
  others : ∀ t name, (t, name) ≠ (set.table, set.name) → r'.set? t name = r.set? t name
  here : (r'.set? set.table set.name).map (·.set) = (r.set? set.table set.name).map (·.set)
  outline : ∀ free : Table → String → Bool, free set.table set.name = true →
    r'.outline free = r.outline free
  checked : ∀ s', r'.set? set.table set.name = some s' → ∀ e ∈ s'.elements,
    set.checkElement e = .ok () ∨ ∃ s, r.set? set.table set.name = some s ∧ e ∈ s.elements

namespace Refilled

variable {set : MatchSet} {r r₁ r' : Ruleset}

theorem refl (set : MatchSet) (r : Ruleset) : Refilled set r r :=
  ⟨id, fun _ _ => rfl, fun _ _ _ => rfl, rfl, fun _ _ => rfl, fun s found _ he => .inr ⟨s, found, he⟩⟩

theorem trans (first : Refilled set r r₁) (second : Refilled set r₁ r') : Refilled set r r' where
  ordered := second.ordered ∘ first.ordered
  chains t name := (second.chains t name).trans (first.chains t name)
  others t name other := (second.others t name other).trans (first.others t name other)
  here := second.here.trans first.here
  outline free isFree := (second.outline free isFree).trans (first.outline free isFree)
  checked := by
    intro s' found e he
    rcases second.checked s' found e he with checked | ⟨s₁, before, old⟩
    · exact .inl checked
    · exact first.checked s₁ before e old

end Refilled

/-- A declaration that changes the elements of a set, to which it adds only what passes its check. -/
inductive Refills (set : MatchSet) : Declaration → Prop where
  | add {elements : List Element} (checked : set.checkElements elements = .ok ()) :
    Refills set (.addElements set elements)
  | delete (elements : List Element) : Refills set (.deleteElements set elements)

variable {set : MatchSet} {r r' : Ruleset}

theorem changeElements_refilled {f : List Element → List Element}
    (new : ∀ current, ∀ e ∈ f current, set.checkElement e = .ok () ∨ e ∈ current)
    (h : (r.changeTable set.table fun t => t.changeElements set.name f) = .ok r') :
    Refilled set r r' := by
  obtain ⟨sets, chains, -, ordered⟩ := changeElements_step h
  have here : r'.set? set.table set.name =
      (r.set? set.table set.name).map fun s => { s with elements := f s.elements } := by
    rw [sets, if_pos ⟨rfl, rfl⟩]
  refine ⟨ordered, chains, ?_, ?_, fun free isFree => changeElements_unseen isFree h, ?_⟩
  · intro t name other
    rw [sets, if_neg]
    intro same
    exact other (by rw [same.1, same.2])
  · rw [here, Option.map_map]
    rfl
  · intro s' found e he
    rw [here] at found
    obtain ⟨s, before, rfl⟩ := Option.map_eq_some_iff.mp found
    rcases new s.elements e he with checked | old
    · exact .inl checked
    · exact .inr ⟨s, before, old⟩

theorem apply_refilled {d : Declaration} (refills : Refills set d) (h : r.apply d = .ok r') :
    Refilled set r r' := by
  cases refills with
  | add checked =>
    refine changeElements_refilled (fun current e he => ?_) h
    rcases mem_addElements he with old | new
    · exact .inr old
    · exact .inl (MatchSet.checkElements_ok.mp checked e new)
  | delete elements => exact changeElements_refilled (fun _ e he => .inr (mem_removeElements he)) h

theorem applyAll_refilled {batch : Batch} {index : Nat} (refills : ∀ d ∈ batch, Refills set d)
    (h : r.applyAll index batch = .ok r') : Refilled set r r' :=
  applyAll_keeps (I := Refilled set r)
    (fun member before h => before.trans (apply_refilled (refills _ member) h)) (.refl _ _) h

end Ruleset

/-- A commit that changes the elements of a set, whatever becomes of it. -/
theorem Kernel.commit_refilled {set : MatchSet} {batch : Batch} {k : Kernel}
    (refills : ∀ d ∈ batch, Ruleset.Refills set d) :
    Ruleset.Refilled set k.ruleset (k.commit batch).2.ruleset := by
  unfold commit
  split
  · exact .refl _ _
  · split
    · rename_i applied
      exact Ruleset.applyAll_refilled refills applied
    · exact .refl _ _

namespace Pending

variable {set : MatchSet} {r : Ruleset}

/-- A transaction that changes the elements of a set, on a kernel where at most these have changed. -/
structure Refilling (set : MatchSet) (r : Ruleset) (p : Pending Kernel) : Prop where
  ruleset : Ruleset.Refilled set r p.sink.ruleset
  batch : ∀ d ∈ p.transaction.batch, Ruleset.Refills set d

theorem knows_kernel (table : Table) (name : String) (p : Pending Kernel) :
    (knows table name p).2 = p := by
  unfold knows
  split
  · rfl
  · split
    · rfl
    · rfl

theorem changeElements_keeps {d : MatchSet → List Element → Declaration}
    (elements : List Element)
    (refills : set.checkElements elements = .ok () → Ruleset.Refills set (d set elements)) :
    (changeElements d set elements).Keeps (Refilling set r) := by
  unfold changeElements
  split
  · exact .pure ()
  · refine .checked fun _ checked => .bind ?_ fun _ => ?_
    · unfold requireSet
      refine .bind ?_ fun known => ?_
      · intro p h
        show Refilling set r (knows set.table set.name p).2
        rw [knows_kernel]
        exact h
      · cases known with
        | true => exact .pure ()
        | false => exact fun _ h => h
    · intro p h
      refine ⟨h.ruleset, ?_⟩
      intro declaration hd
      rcases List.mem_append.mp hd with before | last
      · exact h.batch declaration before
      · rw [List.mem_singleton.mp last]
        exact refills checked

theorem addElements_keeps (elements : List Element) :
    (addElements set elements).Keeps (Refilling set r) :=
  changeElements_keeps elements .add

theorem deleteElements_keeps (elements : List Element) :
    (deleteElements set elements).Keeps (Refilling set r) :=
  changeElements_keeps elements fun _ => .delete elements

theorem flush_keeps : flush.Keeps (Refilling set r) := by
  intro p h
  unfold flush
  split
  · exact h
  · exact ⟨h.ruleset.trans (Kernel.commit_refilled h.batch), fun d hd => absurd hd List.not_mem_nil⟩

end Pending

namespace Controller

variable {set : MatchSet} {c : Controller Kernel}

/-- The same controller, but that the elements of a set can be different. -/
structure Refilled (set : MatchSet) (c c' : Controller Kernel) : Prop where
  state : c' = { c with sink := c'.sink }
  ruleset : Ruleset.Refilled set c.sink.ruleset c'.sink.ruleset

theorem Refilled.refl (set : MatchSet) (c : Controller Kernel) : Refilled set c c :=
  ⟨rfl, .refl _ _⟩

theorem transact_keeps {α : Type} {a : Action (Pending Kernel) α}
    (ha : a.Keeps (Pending.Refilling set c.sink.ruleset)) :
    (transact a).Keeps (Refilled set c) := by
  refine .on ha ?_ ?_
  · intro c' h
    exact ⟨h.ruleset, fun d hd => absurd hd List.not_mem_nil⟩
  · intro c' p h refilling
    refine ⟨?_, refilling.ruleset⟩
    rw [h.state]

/-- A change of a set of addresses changes its elements at most. -/
theorem updateSet_refilled (which : AddressSet) (remove add : List String)
    (c : Controller Kernel) :
    Refilled (which.set c.layout) c (updateSet which remove add c).2 := by
  unfold updateSet
  split
  · exact .refl _ c
  · split
    · exact .refl _ c
    · refine Action.Keeps.namespaced (.bind (.ofExcept _) fun remove => .bind (.ofExcept _) fun add =>
        transact_keeps (.bind (Pending.deleteElements_keeps remove) fun _ =>
          .bind (Pending.addElements_keeps add) fun _ => Pending.flush_keeps)) c (.refl _ c)

/-- A ban changes the elements of the blacklist at most. -/
theorem ban_refilled (specs : List String) (timeout : Option Duration) (c : Controller Kernel) :
    Refilled (AddressSet.blacklist.set c.layout) c (ban specs timeout c).2 := by
  unfold ban
  split
  · exact .refl _ c
  · split
    · exact .refl _ c
    · refine Action.Keeps.namespaced (.bind (.ofExcept _) fun elements => transact_keeps
        (.bind (Pending.addElements_keeps _) fun _ => Pending.flush_keeps)) c (.refl _ c)

/-- A policy stays installed when the elements of an address set change. -/
theorem Installed.refilled {c₀ c' : Controller Kernel} {which : AddressSet} (installed : Installed c₀ c)
    (h : Refilled (which.set c.layout) c c') : Installed c₀ c' := by
  have layout : c.layout = Layout.numbered c₀.config := by rw [installed.state]
  have changed := h.ruleset
  rw [layout] at changed
  obtain ⟨ordered, ⟨plan, planned, chains⟩, ⟨ports, spells, listed⟩, addresses⟩ := installed.carries
  refine ⟨?_, changed.ordered ordered, ⟨plan, planned, ?_⟩, ⟨ports, spells, ?_⟩, ?_⟩
  · rw [h.state, installed.state]
  · intro chain member
    rw [changed.chains]
    exact chains chain member
  · intro s member
    rw [changed.others _ _ (Layout.numbered_ports_apart which member)]
    exact listed s member
  · intro other
    obtain ⟨elements, found⟩ := addresses other
    by_cases same : other = which
    · subst same
      have kept := changed.here.trans (congrArg (Option.map (·.set)) found)
      obtain ⟨⟨set, filled⟩, there, same⟩ := Option.map_eq_some_iff.mp kept
      cases same
      exact ⟨filled, there⟩
    · have apart : ((other.set (Layout.numbered c₀.config)).table,
          (other.set (Layout.numbered c₀.config)).name) ≠
          ((which.set (Layout.numbered c₀.config)).table,
            (which.set (Layout.numbered c₀.config)).name) := by
        intro e
        exact same (Layout.numbered_address_inj e)
      exact ⟨elements, (changed.others _ _ apart).trans found⟩

end Controller

/-- What can happen while the policy is installed: changes of the address sets, and a kernel that refuses
the next batch. -/
inductive Change where
  | update (which : AddressSet) (remove add : List String)
  | ban (specs : List String) (timeout : Option Duration)
  | unban (specs : List String)
  | failNext (reason : String)
  deriving DecidableEq, Repr

namespace Change

def run (change : Change) (c : Controller Kernel) : Controller Kernel :=
  match change with
  | .update which remove add => (Controller.updateSet which remove add c).2
  | .ban specs timeout => (Controller.ban specs timeout c).2
  | .unban specs => (Controller.unban specs c).2
  | .failNext reason => { c with sink := c.sink.failing reason }

def runAll : List Change → Controller Kernel → Controller Kernel
  | [], c => c
  | change :: changes, c => runAll changes (change.run c)

/-- A change changes the elements of one address set at most. -/
theorem run_refilled (change : Change) (c : Controller Kernel) :
    ∃ which : AddressSet, Controller.Refilled (which.set c.layout) c (change.run c) := by
  cases change with
  | update which remove add => exact ⟨which, Controller.updateSet_refilled which remove add c⟩
  | ban specs timeout => exact ⟨.blacklist, Controller.ban_refilled specs timeout c⟩
  | unban specs => exact ⟨.blacklist, Controller.updateSet_refilled .blacklist specs [] c⟩
  | failNext reason => exact ⟨.blacklist, rfl, .refl _ _⟩

/-- No sequence of changes takes the policy away. -/
theorem runAll_installed {c₀ c : Controller Kernel} (changes : List Change)
    (installed : Controller.Installed c₀ c) : Controller.Installed c₀ (runAll changes c) := by
  induction changes generalizing c with
  | nil => exact installed
  | cons change changes ih =>
    obtain ⟨which, refilled⟩ := change.run_refilled c
    exact ih (installed.refilled refilled)

end Change
end Firewall
