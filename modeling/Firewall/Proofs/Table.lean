import Firewall.Ruleset.Basic

namespace Firewall

theorem changeFirst_cons {α ε : Type} {p : α → Bool} {missing : ε} {f : α → Except ε α} {a : α}
    {as bs : List α} (h : changeFirst p missing f (a :: as) = .ok bs) :
    (p a = true ∧ ∃ b, f a = .ok b ∧ bs = b :: as) ∨
      p a = false ∧ ∃ cs, changeFirst p missing f as = .ok cs ∧ bs = a :: cs := by
  unfold changeFirst at h
  cases hp : p a with
  | true =>
    rw [hp, if_pos rfl] at h
    cases hf : f a with
    | error e =>
      rw [hf] at h
      cases h
    | ok b =>
      rw [hf] at h
      cases h
      exact .inl ⟨rfl, b, rfl, rfl⟩
  | false =>
    rw [hp, if_neg Bool.false_ne_true] at h
    cases hc : changeFirst p missing f as with
    | error e =>
      rw [hc] at h
      cases h
    | ok cs =>
      rw [hc] at h
      cases h
      exact .inr ⟨rfl, cs, rfl, rfl⟩

section Keyed

variable {α κ ε : Type} [DecidableEq κ] {key : α → κ} {k : κ} {missing : ε} {f : α → Except ε α}
  {as bs : List α}

/-- The entry of the key is changed, and no other. -/
theorem changeFirst_ok (keeps : ∀ a b, key a = k → f a = .ok b → key b = k)
    (h : changeFirst (fun a => key a = k) missing f as = .ok bs) :
    ∃ a b, as.find? (fun a => key a = k) = some a ∧ f a = .ok b ∧
      ∀ k', bs.find? (fun a => key a = k') = if k' = k then some b else as.find? fun a => key a = k' := by
  induction as generalizing bs with
  | nil => cases h
  | cons a as ih =>
    rcases changeFirst_cons h with ⟨ha, b, hf, rfl⟩ | ⟨ha, cs, hc, rfl⟩
    · have here : key a = k := of_decide_eq_true ha
      have there : key b = k := keeps a b here hf
      refine ⟨a, b, by simp [here], hf, ?_⟩
      intro k'
      by_cases hk : k' = k
      · simp [there, hk]
      · have other : ¬ k = k' := fun e => hk e.symm
        simp [here, there, hk, other]
    · have elsewhere : ¬ key a = k := of_decide_eq_false ha
      obtain ⟨a', b, found, hf, view⟩ := ih hc
      refine ⟨a', b, by simp [elsewhere, found], hf, ?_⟩
      intro k'
      by_cases hk : key a = k'
      · have other : ¬ k' = k := fun e => elsewhere (hk.trans e)
        simp [hk, other]
      · simp [hk, view]

theorem changeFirst_keys (keeps : ∀ a b, key a = k → f a = .ok b → key b = k)
    (h : changeFirst (fun a => key a = k) missing f as = .ok bs) : bs.map key = as.map key := by
  induction as generalizing bs with
  | nil => cases h
  | cons a as ih =>
    rcases changeFirst_cons h with ⟨ha, b, hf, rfl⟩ | ⟨-, cs, hc, rfl⟩
    · have here : key a = k := of_decide_eq_true ha
      rw [List.map_cons, List.map_cons, keeps a b here hf, here]
    · rw [List.map_cons, List.map_cons, ih hc]

/-- Every entry of the changed list is an old one or a change of an old one. -/
theorem changeFirst_mem (h : changeFirst (fun a => key a = k) missing f as = .ok bs) {b : α}
    (hb : b ∈ bs) : b ∈ as ∨ ∃ a ∈ as, f a = .ok b := by
  induction as generalizing bs with
  | nil => cases h
  | cons a as ih =>
    rcases changeFirst_cons h with ⟨-, c, hf, rfl⟩ | ⟨-, cs, hc, rfl⟩
    · rcases List.mem_cons.mp hb with rfl | old
      · exact .inr ⟨a, List.mem_cons_self, hf⟩
      · exact .inl (List.mem_cons_of_mem a old)
    · rcases List.mem_cons.mp hb with rfl | later
      · exact .inl List.mem_cons_self
      · rcases ih hc later with old | ⟨a', member, hf⟩
        · exact .inl (List.mem_cons_of_mem a old)
        · exact .inr ⟨a', List.mem_cons_of_mem a member, hf⟩

/-- A change that always succeeds fails only if the key is missing. -/
theorem changeFirst_none {g : α → α} {e : ε}
    (h : changeFirst (fun a => key a = k) missing (fun a => .ok (g a)) as = .error e) :
    as.find? (fun a => key a = k) = none := by
  induction as with
  | nil => rfl
  | cons a as ih =>
    unfold changeFirst at h
    split at h
    · cases h
    · rename_i ha
      cases hc : changeFirst (fun a => key a = k) missing (fun a => .ok (g a)) as with
      | ok cs =>
        rw [hc] at h
        cases h
      | error e' =>
        rw [hc] at h
        cases h
        have elsewhere : ¬ key a = k := fun e => ha (decide_eq_true e)
        simp [elsewhere, ih hc]

end Keyed

namespace Table

theorem before_irrefl (t : Table) : t.before t = false := by
  simp [before]

theorem before_trans {a b c : Table} (h : a.before b = true) (h' : b.before c = true) :
    a.before c = true := by
  simp only [before, Bool.or_eq_true, decide_eq_true_eq, Bool.and_eq_true, beq_iff_eq] at *
  rcases h with lt | ⟨same, lt⟩
  · rcases h' with lt' | ⟨same', lt'⟩
    · exact .inl (Nat.lt_trans lt lt')
    · exact .inl (same' ▸ lt)
  · rcases h' with lt' | ⟨same', lt'⟩
    · exact .inl (same ▸ lt')
    · exact .inr ⟨same.trans same', String.lt_trans lt lt'⟩

theorem before_total {a b : Table} (h : a.before b ≠ true) (ne : b ≠ a) : b.before a = true := by
  obtain ⟨fa, na⟩ := a
  obtain ⟨fb, nb⟩ := b
  have names : ¬ na < nb → nb ≠ na → nb < na := by
    intro notLt ne'
    rcases Std.lt_trichotomy nb na with lt | eq | gt
    · exact lt
    · exact absurd eq ne'
    · exact absurd gt notLt
  cases fa <;> cases fb <;> simp_all [before, Family.rank]

end Table

/-- A set behind a declaration of it: elements join those of a set that is there. -/
def InstalledSet.declare (set : MatchSet) (elements : List Element) :
    Option InstalledSet → InstalledSet
  | none => ⟨set, Firewall.addElements [] elements⟩
  | some s => { s with elements := Firewall.addElements s.elements elements }

namespace InstalledTable

def Ordered (sets : List InstalledSet) : Prop := (sets.map (·.set.name)).Pairwise (· < ·)

variable {set : MatchSet} {elements : List Element} {ss ss' : List InstalledSet}

theorem addSet_cons {s : InstalledSet} (h : addSet set elements (s :: ss) = .ok ss') :
    (s.set.name = set.name ∧ ss' = .declare set elements (some s) :: ss) ∨
      (s.set.name ≠ set.name ∧ set.name < s.set.name ∧
        ss' = .declare set elements none :: s :: ss) ∨
      (s.set.name < set.name ∧ ∃ cs, addSet set elements ss = .ok cs ∧ ss' = s :: cs) := by
  unfold addSet at h
  by_cases same : s.set.name = set.name
  · rw [if_pos same] at h
    split at h
    · cases h
      exact .inl ⟨same, rfl⟩
    · cases h
  · rw [if_neg same] at h
    split at h
    · rename_i lt
      cases h
      exact .inr (.inl ⟨same, lt, rfl⟩)
    · rename_i notLt
      have lt : s.set.name < set.name := by
        rcases Std.lt_trichotomy s.set.name set.name with lt | eq | gt
        · exact lt
        · exact absurd eq same
        · exact absurd gt notLt
      cases hc : addSet set elements ss with
      | error cause =>
        rw [hc] at h
        cases h
      | ok cs =>
        rw [hc] at h
        cases h
        exact .inr (.inr ⟨lt, cs, rfl, rfl⟩)

theorem addSet_find? (ordered : Ordered ss) (h : addSet set elements ss = .ok ss') (name : String) :
    ss'.find? (fun s => s.set.name = name) =
      if name = set.name then
        some (.declare set elements (ss.find? fun s => s.set.name = name))
      else ss.find? fun s => s.set.name = name := by
  induction ss generalizing ss' with
  | nil =>
    cases h
    by_cases hn : name = set.name
    · simp [hn, InstalledSet.declare]
    · have other : ¬ set.name = name := fun e => hn e.symm
      simp [hn, other]
  | cons s ss ih =>
    obtain ⟨first, rest⟩ := List.pairwise_cons.mp ordered
    rcases addSet_cons h with ⟨same, rfl⟩ | ⟨same, lt, rfl⟩ | ⟨lt, cs, hc, rfl⟩
    · by_cases hn : name = set.name
      · simp [hn, same, InstalledSet.declare]
      · have other : ¬ set.name = name := fun e => hn e.symm
        simp [hn, same, other, InstalledSet.declare]
    · by_cases hn : name = set.name
      · have absent : (s :: ss).find? (fun s => s.set.name = name) = none := by
          rw [List.find?_eq_none]
          intro q hq
          have below : set.name < q.set.name := by
            rcases List.mem_cons.mp hq with rfl | later
            · exact lt
            · exact String.lt_trans lt (first _ (List.mem_map_of_mem later))
          simpa [hn] using (String.ne_of_lt below).symm
        rw [absent]
        simp [hn, InstalledSet.declare]
      · have other : ¬ set.name = name := fun e => hn e.symm
        simp [hn, other, InstalledSet.declare]
    · have view := ih rest hc
      by_cases hs : s.set.name = name
      · have other : ¬ name = set.name := fun e => String.ne_of_lt lt (hs.trans e)
        simp [hs, other]
      · simp [hs, view]

theorem addSet_keys (h : addSet set elements ss = .ok ss') {name : String}
    (hn : name ∈ ss'.map (·.set.name)) : name = set.name ∨ name ∈ ss.map (·.set.name) := by
  induction ss generalizing ss' with
  | nil =>
    cases h
    simpa using hn
  | cons s ss ih =>
    rcases addSet_cons h with ⟨-, rfl⟩ | ⟨-, -, rfl⟩ | ⟨-, cs, hc, rfl⟩
    · exact .inr hn
    · exact List.mem_cons.mp hn
    · rcases List.mem_cons.mp hn with rfl | later
      · exact .inr List.mem_cons_self
      · rcases ih hc later with new | old
        · exact .inl new
        · exact .inr (List.mem_cons_of_mem _ old)

theorem addSet_ordered (ordered : Ordered ss) (h : addSet set elements ss = .ok ss') :
    Ordered ss' := by
  induction ss generalizing ss' with
  | nil =>
    cases h
    exact List.pairwise_singleton _ _
  | cons s ss ih =>
    obtain ⟨first, rest⟩ := List.pairwise_cons.mp ordered
    rcases addSet_cons h with ⟨-, rfl⟩ | ⟨-, lt, rfl⟩ | ⟨lt, cs, hc, rfl⟩
    · exact ordered
    · refine List.pairwise_cons.mpr ⟨?_, ordered⟩
      intro name hn
      rcases List.mem_cons.mp hn with rfl | later
      · exact lt
      · exact String.lt_trans lt (first name later)
    · refine List.pairwise_cons.mpr ⟨?_, ih rest hc⟩
      intro name hn
      rcases addSet_keys hc hn with rfl | old
      · exact lt
      · exact first name old

variable {t t' : InstalledTable} {name : String}

theorem changeElements_ok {f : List Element → List Element} (h : t.changeElements name f = .ok t') :
    t'.table = t.table ∧ t'.chains = t.chains ∧
      t'.sets.map (·.set.name) = t.sets.map (·.set.name) ∧
      ∃ s, t.set? name = some s ∧
        ∀ n, t'.set? n = if n = name then some { s with elements := f s.elements } else t.set? n := by
  unfold changeElements at h
  split at h
  · rename_i sets hc
    cases h
    have keeps : ∀ a b : InstalledSet, a.set.name = name →
        Except.ok { a with elements := f a.elements } = (.ok b : Except Rejection InstalledSet) →
          b.set.name = name := by
      intro a b ha e
      cases e
      exact ha
    obtain ⟨s, s', found, e, view⟩ := changeFirst_ok keeps hc
    cases e
    exact ⟨rfl, rfl, changeFirst_keys keeps hc, s, found, view⟩
  · cases h

theorem changeRules_ok {f : List RuleData → Except Rejection (List RuleData)}
    (h : t.changeRules name f = .ok t') :
    t'.table = t.table ∧ t'.sets = t.sets ∧ ∃ c rules, t.chain? name = some c ∧ f c.rules = .ok rules ∧
      ∀ n, t'.chain? n = if n = name then some { c with rules } else t.chain? n := by
  unfold changeRules at h
  split at h
  · rename_i chains hc
    cases h
    obtain ⟨c, c', found, e, view⟩ := changeFirst_ok (by
      intro a b ha e
      split at e
      · cases e
        exact ha
      · cases e) hc
    split at e
    · rename_i rules hf
      cases e
      exact ⟨rfl, rfl, c, rules, found, hf, view⟩
    · cases e
  · cases h

theorem addChain_table (t : InstalledTable) (chain : Chain) : (t.addChain chain).table = t.table := by
  unfold addChain
  split <;> rfl

theorem addChain_sets (t : InstalledTable) (chain : Chain) : (t.addChain chain).sets = t.sets := by
  unfold addChain
  split <;> rfl

/-- A chain behind a declaration of it: one that is there keeps its rules. -/
theorem addChain_chain? (t : InstalledTable) (chain : Chain) (n : String) :
    (t.addChain chain).chain? n =
      if n = chain.name then some ⟨chain, ((t.chain? n).map (·.rules)).getD []⟩ else t.chain? n := by
  have keeps : ∀ a b : InstalledChain, a.chain.name = chain.name →
      Except.ok { a with chain } = (.ok b : Except Unit InstalledChain) →
        b.chain.name = chain.name := by
    intro a b ha e
    cases e
    rfl
  unfold addChain
  split
  · rename_i chains hc
    obtain ⟨c, c', found, e, view⟩ := changeFirst_ok keeps hc
    cases e
    refine (view n).trans ?_
    by_cases hn : n = chain.name
    · have here : t.chain? n = some c := hn ▸ found
      rw [if_pos hn, if_pos hn, here]
      rfl
    · rw [if_neg hn, if_neg hn]
      rfl
  · rename_i hc
    have absent := changeFirst_none hc
    show (t.chains ++ [(⟨chain, []⟩ : InstalledChain)]).find? _ = _
    rw [List.find?_append]
    by_cases hn : n = chain.name
    · have fresh : t.chains.find? (fun c => c.chain.name = n) = none := hn ▸ absent
      rw [if_pos hn, chain?, fresh]
      simp [hn]
    · have other : ¬ chain.name = n := fun e => hn e.symm
      rw [if_neg hn]
      simp [other, chain?]

end InstalledTable

end Firewall
