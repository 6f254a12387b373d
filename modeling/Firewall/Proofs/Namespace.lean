import Firewall.Proofs.Transaction

namespace Firewall

namespace Namespace

variable {σ α β : Type} {a : Action σ α} {s s' : σ} {host : Namespaces} {name : String} {b : α} {e : Error}

/-- Whether actions run in a namespace: it is the current one or can be entered. -/
def Entered (host : Namespaces) (name : String) : Prop := name = "" ∨ enter host name = .ok ()

/-- Whether what comes of them is told: the namespace is the current one or can be left again. -/
def Left (host : Namespaces) (name : String) : Prop := name = "" ∨ leave host = .ok ()

/-- Where a namespace cannot be entered, nothing is run. -/
theorem run_of_not_entered (out : ¬Entered host name) (a : Action σ α) : ∃ e, run host name a = .fail e := by
  unfold run
  rw [if_neg fun current => out (.inl current)]
  cases entered : enter host name with
  | ok _ => exact absurd (.inr entered) out
  | error e => exact ⟨e, rfl⟩

theorem leave_error (h : leave host = .error e) : e = .namespaceHeld := by
  unfold leave at h
  split at h
  · cases h
  · cases h
    rfl

theorem run_ok (h : run host name a s = (.ok b, s')) :
    a s = (.ok b, s') ∧ Entered host name ∧ Left host name := by
  unfold run at h
  split at h
  · rename_i current
    exact ⟨h, .inl current, .inl current⟩
  · obtain ⟨_, _, first, rest⟩ := Action.bind_ok h
    obtain ⟨entered, rfl⟩ := Action.ofExcept_ok first
    obtain ⟨_, _, inside, rest⟩ := Action.bind_ok rest
    obtain ⟨_, _, last, told⟩ := Action.bind_ok rest
    obtain ⟨left, rfl⟩ := Action.ofExcept_ok last
    cases told
    exact ⟨inside, .inr entered, .inr left⟩

/-- An action is not run at all, fails by itself, or is done when its namespace turns out not to be left. -/
theorem run_error (h : run host name a s = (.error e, s')) :
    s' = s ∨ a s = (.error e, s') ∨
      e = .namespaceHeld ∧ Entered host name ∧ ¬Left host name ∧ ∃ x, a s = (.ok x, s') := by
  unfold run at h
  split at h
  · exact .inr (.inl h)
  · rename_i named
    rcases Action.bind_error h with refused | ⟨_, _, first, rest⟩
    · exact .inl (Action.ofExcept_error refused).2
    · obtain ⟨entered, rfl⟩ := Action.ofExcept_ok first
      rcases Action.bind_error rest with failed | ⟨x, _, inside, rest⟩
      · exact .inr (.inl failed)
      · rcases Action.bind_error rest with last | ⟨_, _, -, told⟩
        · obtain ⟨held, rfl⟩ := Action.ofExcept_error last
          refine .inr (.inr ⟨leave_error held, .inr entered, ?_, x, inside⟩)
          rintro (current | left)
          · exact named current
          · cases held.symm.trans left
        · cases told

theorem run_of_left (entered : Entered host name) (left : Left host name) (a : Action σ α) :
    run host name a = a := by
  unfold run
  split
  · rfl
  · rename_i named
    funext s
    rw [entered.resolve_left named, left.resolve_left named]
    simp only [bind, Action.andThen, Action.ofExcept, Action.result]
    cases a s with
    | mk r s₁ => cases r <;> rfl

theorem run_map (host : Namespaces) (name : String) (a : Action σ α) (f : α → β) :
    (run host name a >>= fun x => pure (f x)) = run host name (a >>= fun x => pure (f x)) := by
  unfold run
  split
  · rfl
  · funext s
    cases entered : enter host name with
    | error e => rfl
    | ok _ =>
      simp only [bind, Action.andThen, Action.ofExcept, Action.result]
      cases a s with
      | mk r s₁ =>
        cases r with
        | error e => rfl
        | ok x => cases leave host <;> rfl

theorem run_state (host : Namespaces) (name : String) (a : Action σ α) (s : σ) :
    (run host name a s).2 = s ∨ (run host name a s).2 = (a s).2 := by
  cases h : run host name a s with
  | mk r s' =>
    cases r with
    | ok b => exact .inr (congrArg Prod.snd (run_ok h).1).symm
    | error e =>
      rcases run_error h with refused | failed | ⟨-, -, -, x, done⟩
      · exact .inl refused
      · exact .inr (congrArg Prod.snd failed).symm
      · exact .inr (congrArg Prod.snd done).symm

end Namespace

end Firewall
