import Firewall.Policy.Rules

namespace Firewall

namespace Action

variable {σ τ α β : Type} {s s' : σ}

theorem bind_ok {x : Action σ α} {f : α → Action σ β} {b : β} (h : (x >>= f) s = (.ok b, s')) :
    ∃ a s₁, x s = (.ok a, s₁) ∧ f a s₁ = (.ok b, s') := by
  change andThen x f s = (.ok b, s') at h
  unfold andThen at h
  split at h
  · rename_i a s₁ hx
    exact ⟨a, s₁, hx, h⟩
  · cases h

theorem bind_error {x : Action σ α} {f : α → Action σ β} {e : Error} (h : (x >>= f) s = (.error e, s')) :
    x s = (.error e, s') ∨ ∃ a s₁, x s = (.ok a, s₁) ∧ f a s₁ = (.error e, s') := by
  change andThen x f s = (.error e, s') at h
  unfold andThen at h
  split at h
  · rename_i a s₁ hx
    exact .inr ⟨a, s₁, hx, h⟩
  · rename_i fault s₁ hx
    cases h
    exact .inl hx

theorem ofExcept_ok {r : Except Error α} {a : α} (h : ofExcept r s = (.ok a, s')) :
    r = .ok a ∧ s' = s := by
  cases r with
  | error e => cases h
  | ok b =>
    cases h
    exact ⟨rfl, rfl⟩

theorem ofExcept_error {r : Except Error α} {e : Error} (h : ofExcept r s = (.error e, s')) :
    r = .error e ∧ s' = s := by
  cases r with
  | ok a => cases h
  | error fault =>
    cases h
    exact ⟨rfl, rfl⟩

theorem on_ok {get : τ → σ} {set : τ → σ → τ} {a : Action σ α} {t t' : τ} {b : α}
    (h : a.on get set t = (.ok b, t')) : ∃ s, a (get t) = (.ok b, s) ∧ t' = set t s := by
  unfold on at h
  cases hr : a (get t) with
  | mk r s =>
    rw [hr] at h
    cases h
    exact ⟨s, rfl, rfl⟩

end Action

namespace Transaction

/-- A set declared in a transaction with the next number. -/
def declare (t : Transaction) (set : MatchSet) (elements : List Element) : Transaction :=
  { t.push (.addSet set elements) with
    nextSetId := t.nextSetId + 1
    declared := (set.table, set.name) :: t.declared }

def declareIf (wanted : Bool) (t : Transaction) (set : MatchSet) (elements : List Element) :
    Transaction :=
  if wanted then t.declare set elements else t

section Fields

variable (t : Transaction) (set : MatchSet) (elements : List Element) (wanted : Bool)

@[simp] theorem declare_batch :
    (t.declare set elements).batch = t.batch ++ [.addSet set elements] := rfl

@[simp] theorem declare_nextSetId : (t.declare set elements).nextSetId = t.nextSetId + 1 := rfl

@[simp] theorem declare_declared :
    (t.declare set elements).declared = (set.table, set.name) :: t.declared := rfl

@[simp] theorem declare_reset : (t.declare set elements).reset = t.reset := rfl

@[simp] theorem declareIf_batch : (declareIf wanted t set elements).batch =
    t.batch ++ if wanted then [.addSet set elements] else [] := by
  cases wanted
  · exact (List.append_nil _).symm
  · rfl

@[simp] theorem declareIf_nextSetId :
    (declareIf wanted t set elements).nextSetId = t.nextSetId + wanted.toNat := by
  cases wanted <;> rfl

@[simp] theorem declareIf_declared : (declareIf wanted t set elements).declared =
    if wanted then (set.table, set.name) :: t.declared else t.declared := by
  cases wanted <;> rfl

@[simp] theorem declareIf_reset : (declareIf wanted t set elements).reset = t.reset := by
  cases wanted <;> rfl

end Fields

end Transaction

namespace Pending

variable {σ : Type} [Sink σ] {p p' : Pending σ} {set set' : MatchSet} {elements : List Element}

omit [Sink σ] in
theorem collect_ok {f : Transaction → Transaction} {u : Unit} (h : collect f p = (.ok u, p')) :
    p' = ⟨f p.transaction, p.sink⟩ := by
  cases h
  rfl

theorem knows_reset (reset : p.transaction.reset = true) (table : Table) (name : String) :
    knows table name p = (p.transaction.declared.contains (table, name), p) := by
  unfold knows
  cases hd : p.transaction.declared.contains (table, name) with
  | true => rfl
  | false => rw [reset, if_neg Bool.false_ne_true, if_pos rfl]

/-- Without a set of that name the number is free. -/
theorem freshNumber_reset (reset : p.transaction.reset = true) {table : Table} {n : Nat}
    (fresh : (table, anonymousName n) ∉ p.transaction.declared) (tries : Nat) :
    freshNumber table tries n p = (n, p) := by
  cases tries with
  | zero => rfl
  | succ tries =>
    have unknown : p.transaction.declared.contains (table, anonymousName n) = false := by
      simpa using fresh
    rw [freshNumber, knows_reset reset, unknown]

omit [Sink σ] in
/-- What is left of a declaration once the set has its id and name. -/
private theorem declare_ok {t : Transaction} {sink : σ}
    (h : ((do
      Action.ofExcept (set.checkElements elements)
      collect fun t =>
        { t.push (.addSet set elements) with declared := (set.table, set.name) :: t.declared }
      return set) : Action (Pending σ) MatchSet) ⟨t, sink⟩ = (.ok set', p')) :
    set' = set ∧ set.checkElements elements = .ok () ∧
      p' = ⟨{ t.push (.addSet set elements) with declared := (set.table, set.name) :: t.declared },
        sink⟩ := by
  obtain ⟨u, p₁, hcheck, h⟩ := Action.bind_ok h
  obtain ⟨check, rfl⟩ := Action.ofExcept_ok hcheck
  obtain ⟨u, p₂, hcollect, h⟩ := Action.bind_ok h
  cases hcollect
  cases h
  exact ⟨rfl, check, rfl⟩

/-- A set with a name is declared under it, with the next number as its id. -/
theorem addSet_ok (named : set.name ≠ "") (h : addSet set elements p = (.ok set', p')) :
    set' = { set with id := p.transaction.nextSetId } ∧
      set'.checkElements elements = .ok () ∧
      p' = { p with transaction := p.transaction.declare set' elements } := by
  unfold addSet at h
  obtain ⟨id, p₁, hid, h⟩ := Action.bind_ok h
  cases hid
  have notTaken : ¬ (set.flags.anonymous = true ∧ set.name = "") := fun both => named both.2
  dsimp only at h
  rw [if_neg notTaken] at h
  obtain ⟨name, p₂, hname, h⟩ := Action.bind_ok h
  cases hname
  rw [if_neg named] at h
  obtain ⟨rfl, check, rfl⟩ := declare_ok h
  exact ⟨rfl, check, rfl⟩

theorem anonymousName_ne (n : Nat) : anonymousName n ≠ "" := by
  intro h
  have length := congrArg String.length h
  simp [anonymousName, String.length_append] at length

/-- An anonymous set gets the name of its number, if the transaction has flushed the ruleset and has not
given that name. -/
theorem addSet_anonymous_ok (reset : p.transaction.reset = true)
    (anonymous : set.flags.anonymous = true ∧ set.name = "")
    (fresh : (set.table, anonymousName p.transaction.nextSetId) ∉ p.transaction.declared)
    (h : addSet set elements p = (.ok set', p')) :
    set' = { set with
        id := p.transaction.nextSetId
        name := anonymousName p.transaction.nextSetId } ∧
      set'.checkElements elements = .ok () ∧
      p' = { p with transaction := p.transaction.declare set' elements } := by
  unfold addSet at h
  obtain ⟨id, p₁, hid, h⟩ := Action.bind_ok h
  cases hid
  dsimp only at h
  rw [if_pos anonymous] at h
  obtain ⟨name, p₂, hname, h⟩ := Action.bind_ok h
  unfold takeName at hname
  have free := freshNumber_reset reset fresh
    (p := ⟨{ p.transaction with nextSetId := p.transaction.nextSetId + 1 }, p.sink⟩)
  rw [free] at hname
  cases hname
  rw [if_neg (anonymousName_ne _)] at h
  obtain ⟨rfl, check, rfl⟩ := declare_ok h
  refine ⟨rfl, check, ?_⟩
  simp [Transaction.declare, Transaction.push]

theorem requireSets_ok (reset : p.transaction.reset = true) {table : Table} {sets : List SetRef}
    {u : Unit} (h : requireSets table sets p = (.ok u, p')) :
    p' = p ∧ ∀ s ∈ sets, (table, s.name) ∈ p.transaction.declared := by
  induction sets with
  | nil =>
    cases h
    exact ⟨rfl, fun s hs => absurd hs List.not_mem_nil⟩
  | cons s sets ih =>
    unfold requireSets at h
    obtain ⟨v, p₁, hfirst, h⟩ := Action.bind_ok h
    unfold requireSet at hfirst
    obtain ⟨known, p₂, hknown, hfirst⟩ := Action.bind_ok hfirst
    unfold Action.ofState at hknown
    rw [knows_reset reset] at hknown
    cases hknown
    split at hfirst
    · rename_i member
      cases hfirst
      obtain ⟨rfl, rest⟩ := ih h
      refine ⟨rfl, ?_⟩
      intro q hq
      rcases List.mem_cons.mp hq with rfl | later
      · exact List.contains_iff_mem.mp member
      · exact rest q later
    · cases hfirst

/-- A rule is collected if its program is in order and its sets have been declared. -/
theorem addRule_ok (reset : p.transaction.reset = true) {chain : Chain} {data : RuleData} {u : Unit}
    (h : addRule chain data p = (.ok u, p')) :
    data.program.validate chain.table.family = .ok () ∧
      (∀ s ∈ data.program.sets, (chain.table, s.name) ∈ p.transaction.declared) ∧
      p' = { p with transaction := p.transaction.push (.addRule ⟨chain.table, chain.name, data⟩) } := by
  unfold addRule placeRule at h
  obtain ⟨v, p₁, hvalid, rest⟩ := Action.bind_ok h
  obtain ⟨valid, e⟩ := Action.ofExcept_ok hvalid
  rw [e] at rest
  obtain ⟨w, p₂, hsets, last⟩ := Action.bind_ok rest
  obtain ⟨e', known⟩ := requireSets_ok reset hsets
  rw [e'] at last
  cases last
  exact ⟨valid, known, rfl⟩

end Pending

def PlannedRule.declaration (r : PlannedRule) : Declaration :=
  .addRule ⟨r.chain.table, r.chain.name, r.data⟩

namespace Compiler

variable {σ : Type} [Sink σ]

/-- Planned rules are collected in order. -/
theorem queue_ok {plan : List PlannedRule} {p p' : Pending σ} {u : Unit}
    (reset : p.transaction.reset = true) (h : queue plan p = (.ok u, p')) :
    p' = { p with transaction :=
      { p.transaction with batch := p.transaction.batch ++ plan.map PlannedRule.declaration } } := by
  induction plan generalizing p with
  | nil =>
    cases h
    simp
  | cons r plan ih =>
    unfold queue at h
    obtain ⟨v, p₁, hrule, h⟩ := Action.bind_ok h
    obtain ⟨-, -, rfl⟩ := Pending.addRule_ok reset hrule
    rw [ih (p := ⟨p.transaction.push r.declaration, p.sink⟩) reset h]
    simp [Transaction.push]

end Compiler
end Firewall
