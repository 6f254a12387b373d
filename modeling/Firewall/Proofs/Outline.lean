import Firewall.Proofs.Ruleset

namespace Firewall

section Lists

variable {α ε : Type} {g : α → α} {p : α → Bool} {missing : ε} {f f' : α → Except ε α} {as bs : List α}

/-- Two failures are the same, and so are two results up to `g`. -/
theorem map_eq_cases {x y : Except ε α} (h : x.map g = y.map g) :
    (∃ a b, x = .ok a ∧ y = .ok b ∧ g a = g b) ∨ ∃ e, x = .error e ∧ y = .error e := by
  cases x with
  | ok a =>
    cases y with
    | ok b => exact .inl ⟨a, b, rfl, rfl, Except.ok.inj h⟩
    | error e => cases h
  | error e =>
    cases y with
    | ok b => cases h
    | error e' =>
      cases Except.error.inj h
      exact .inr ⟨e, rfl, rfl⟩

/-- The first entry that satisfies `p` is changed in the same way in lists that are the same up to `g`. -/
theorem changeFirst_map (same : ∀ a, p (g a) = p a) (idem : ∀ a, g (g a) = g a)
    (hf : ∀ a, p a = true → (f a).map g = (f' (g a)).map g) :
    (changeFirst p missing f as).map (List.map g) =
      (changeFirst p missing f' (as.map g)).map (List.map g) := by
  have again : ∀ as : List α, (as.map g).map g = as.map g := by
    intro as
    rw [List.map_map]
    exact List.map_congr_left fun a _ => idem a
  induction as with
  | nil => rfl
  | cons a as ih =>
    rw [List.map_cons, changeFirst, changeFirst, same]
    cases hp : p a with
    | true =>
      rw [if_pos rfl, if_pos rfl]
      rcases map_eq_cases (hf a hp) with ⟨b, b', hb, hb', e⟩ | ⟨e, hb, hb'⟩
      · rw [hb, hb']
        show Except.ok (g b :: as.map g) = .ok (g b' :: (as.map g).map g)
        rw [e, again]
      · rw [hb, hb']
    | false =>
      rw [if_neg Bool.false_ne_true, if_neg Bool.false_ne_true]
      rcases map_eq_cases ih with ⟨cs, cs', hc, hc', e⟩ | ⟨e, hc, hc'⟩
      · rw [hc, hc']
        show Except.ok (g a :: cs.map g) = .ok (g (g a) :: cs'.map g)
        rw [idem, e]
      · rw [hc, hc']

theorem changeFirst_congr (f' : α → Except ε α) (h : ∀ a, f a = f' a) :
    changeFirst p missing f as = changeFirst p missing f' as :=
  congrArg (changeFirst p missing · as) (funext h)

/-- A change that `g` does not see. -/
theorem changeFirst_unseen (unseen : ∀ a b, p a = true → f a = .ok b → g b = g a)
    (h : changeFirst p missing f as = .ok bs) : bs.map g = as.map g := by
  induction as generalizing bs with
  | nil => cases h
  | cons a as ih =>
    rcases changeFirst_cons h with ⟨ha, b, hf, rfl⟩ | ⟨-, cs, hc, rfl⟩
    · rw [List.map_cons, List.map_cons, unseen a b ha hf]
    · rw [List.map_cons, List.map_cons, ih hc]

end Lists

theorem RuleData.bare_idem (r : RuleData) : r.bare.bare = r.bare := rfl

def InstalledSet.outline (free : String → Bool) (s : InstalledSet) : InstalledSet :=
  if free s.set.name then { s with elements := [] } else s

def InstalledChain.outline (c : InstalledChain) : InstalledChain := { c with rules := c.rules.map RuleData.bare }

/-- A table without the handles of its rules and without the elements of the sets that are free to
change. -/
def InstalledTable.outline (free : Table → String → Bool) (t : InstalledTable) : InstalledTable :=
  { t with
    chains := t.chains.map InstalledChain.outline
    sets := t.sets.map (InstalledSet.outline (free t.table)) }

/-- The outlines of all tables. -/
def Ruleset.outline (free : Table → String → Bool) (r : Ruleset) : Ruleset :=
  ⟨r.tables.map (InstalledTable.outline free), 0⟩

namespace InstalledSet

variable {free : String → Bool}

@[simp] theorem outline_set (free : String → Bool) (s : InstalledSet) : (s.outline free).set = s.set := by
  unfold outline
  split <;> rfl

/-- Elements of a set that is free to change leave no trace, and others change in the same way. -/
theorem outline_elements (s : InstalledSet) (f : List Element → List Element) :
    outline free { s with elements := f s.elements } =
      outline free { s with elements := f (s.outline free).elements } := by
  cases h : free s.set.name with
  | true => simp [outline, h]
  | false => simp [outline, h]

theorem outline_free {s s' : InstalledSet} (h : free s.set.name = true) (same : s'.set = s.set) :
    s'.outline free = s.outline free := by
  obtain ⟨set, elements⟩ := s
  obtain ⟨set', elements'⟩ := s'
  cases same
  simp [outline, h]

theorem outline_idem (s : InstalledSet) : (s.outline free).outline free = s.outline free := by
  cases h : free s.set.name with
  | true => simp [outline, h]
  | false => simp [outline, h]

end InstalledSet

theorem InstalledChain.outline_idem (c : InstalledChain) : c.outline.outline = c.outline := by
  simp only [outline, List.map_map]
  rfl

namespace InstalledTable

variable {free : Table → String → Bool} {t : InstalledTable}

theorem outline_idem (t : InstalledTable) : (t.outline free).outline free = t.outline free := by
  simp only [outline, List.map_map]
  congr 1
  · exact List.map_congr_left fun c _ => c.outline_idem
  · exact List.map_congr_left fun s _ => s.outline_idem

theorem outline_set? (t : InstalledTable) (name : String) :
    (t.outline free).set? name = (t.set? name).map (InstalledSet.outline (free t.table)) := by
  unfold set? outline
  rw [List.find?_map]
  congr 2
  funext s
  simp

theorem outline_missingSet? (t : InstalledTable) (sets : List SetRef) :
    (t.outline free).missingSet? sets = t.missingSet? sets := by
  unfold missingSet?
  congr 1
  funext s
  rw [outline_set?, Option.isNone_map]

/-- Tables are the same up to their outlines if their chains are and their sets. -/
theorem outline_congr {chains chains' : List InstalledChain} {sets sets' : List InstalledSet}
    (hc : chains.map InstalledChain.outline = chains'.map InstalledChain.outline)
    (hs : sets.map (InstalledSet.outline (free t.table)) =
      sets'.map (InstalledSet.outline (free t.table))) :
    outline free ⟨t.table, chains, sets⟩ = outline free ⟨t.table, chains', sets'⟩ := by
  unfold outline
  rw [hc, hs]

theorem outline_chains (t : InstalledTable) :
    (t.outline free).chains.map InstalledChain.outline = t.chains.map InstalledChain.outline := by
  have again : (t.outline free).outline free = t.outline free := t.outline_idem
  exact congrArg InstalledTable.chains again

theorem outline_sets (t : InstalledTable) :
    (t.outline free).sets.map (InstalledSet.outline (free t.table)) =
      t.sets.map (InstalledSet.outline (free t.table)) := by
  have again : (t.outline free).outline free = t.outline free := t.outline_idem
  exact congrArg InstalledTable.sets again

theorem addChain_outline (t : InstalledTable) (chain : Chain) :
    (t.addChain chain).outline free = ((t.outline free).addChain chain).outline free := by
  have chains : (changeFirst (fun c : InstalledChain => c.chain.name = chain.name) ()
        (fun c => .ok { c with chain }) t.chains).map (List.map InstalledChain.outline) =
      (changeFirst (fun c : InstalledChain => c.chain.name = chain.name) ()
        (fun c => .ok { c with chain }) (t.outline free).chains).map
          (List.map InstalledChain.outline) := by
    refine changeFirst_map (fun _ => rfl) InstalledChain.outline_idem fun c _ => ?_
    have same : InstalledChain.outline { c with chain } =
        InstalledChain.outline { c.outline with chain } :=
      congrArg (InstalledChain.mk chain) (congrArg InstalledChain.rules c.outline_idem).symm
    exact congrArg Except.ok same
  unfold addChain
  rcases map_eq_cases chains with ⟨cs, cs', hc, hc', e⟩ | ⟨e, hc, hc'⟩
  · rw [hc, hc']
    exact outline_congr e t.outline_sets.symm
  · rw [hc, hc']
    refine outline_congr ?_ t.outline_sets.symm
    rw [List.map_append, List.map_append, outline_chains]

/-- Elements join a set in the same way if it is the same up to its outline. -/
theorem addSet_outline (free : String → Bool) (set : MatchSet) (elements : List Element)
    (ss : List InstalledSet) :
    (addSet set elements ss).map (List.map (InstalledSet.outline free)) =
      (addSet set elements (ss.map (InstalledSet.outline free))).map
        (List.map (InstalledSet.outline free)) := by
  have again : ∀ ss : List InstalledSet, (ss.map (InstalledSet.outline free)).map
      (InstalledSet.outline free) = ss.map (InstalledSet.outline free) := by
    intro ss
    rw [List.map_map]
    exact List.map_congr_left fun s _ => s.outline_idem
  induction ss with
  | nil => rfl
  | cons s ss ih =>
    rw [List.map_cons, addSet, addSet, s.outline_set]
    split
    · split
      · show Except.ok (_ :: _) = Except.ok (_ :: _)
        rw [again]
        have joined : InstalledSet.outline free _ = _ := s.outline_elements fun current =>
          Firewall.addElements current elements
        exact congrArg (fun s => Except.ok (s :: ss.map _)) joined
      · rfl
    · split
      · show Except.ok (_ :: _ :: _) = Except.ok (_ :: _ :: _)
        rw [again, s.outline_idem]
      · rcases map_eq_cases ih with ⟨cs, cs', hc, hc', e⟩ | ⟨e, hc, hc'⟩
        · rw [hc, hc']
          show Except.ok (_ :: cs.map _) = Except.ok (_ :: cs'.map _)
          rw [e, s.outline_idem]
        · rw [hc, hc']

theorem changeElements_outline (t : InstalledTable) (name : String) (f : List Element → List Element) :
    (t.changeElements name f).map (outline free) =
      ((t.outline free).changeElements name f).map (outline free) := by
  have sets : (changeFirst (fun s : InstalledSet => s.set.name = name) (Rejection.noSet name)
        (fun s => .ok { s with elements := f s.elements }) t.sets).map
          (List.map (InstalledSet.outline (free t.table))) =
      (changeFirst (fun s : InstalledSet => s.set.name = name) (Rejection.noSet name)
        (fun s => .ok { s with elements := f s.elements }) (t.outline free).sets).map
          (List.map (InstalledSet.outline (free t.table))) := by
    refine changeFirst_map (fun s => ?_) InstalledSet.outline_idem fun s _ => ?_
    · rw [s.outline_set]
    · have changed : InstalledSet.outline (free t.table) _ = _ := s.outline_elements f
      rw [s.outline_set]
      exact congrArg Except.ok changed
  unfold changeElements
  rcases map_eq_cases sets with ⟨ss, ss', hs, hs', e⟩ | ⟨e, hs, hs'⟩
  · rw [hs, hs']
    exact congrArg Except.ok (outline_congr t.outline_chains.symm e)
  · rw [hs, hs']

theorem changeRules_eq (t : InstalledTable) (name : String)
    (put : List RuleData → Except Rejection (List RuleData)) :
    t.changeRules name put = (changeFirst (fun c : InstalledChain => c.chain.name = name)
      (Rejection.noChain name) (fun c => (put c.rules).map (InstalledChain.mk c.chain)) t.chains).map
        fun chains => { t with chains } := by
  unfold changeRules
  rw [changeFirst_congr fun c => (put c.rules).map (InstalledChain.mk c.chain)]
  · cases changeFirst (fun c : InstalledChain => c.chain.name = name) (Rejection.noChain name) _ t.chains
    · rfl
    · rfl
  · intro c
    cases put c.rules
    · rfl
    · rfl

theorem changeRules_outline (t : InstalledTable) (name : String)
    {put put' : List RuleData → Except Rejection (List RuleData)}
    (h : ∀ rules, (put rules).map (List.map RuleData.bare) =
      (put' (rules.map RuleData.bare)).map (List.map RuleData.bare)) :
    (t.changeRules name put).map (outline free) =
      ((t.outline free).changeRules name put').map (outline free) := by
  have chains : (changeFirst (fun c : InstalledChain => c.chain.name = name) (Rejection.noChain name)
        (fun c => (put c.rules).map (InstalledChain.mk c.chain)) t.chains).map
          (List.map InstalledChain.outline) =
      (changeFirst (fun c : InstalledChain => c.chain.name = name) (Rejection.noChain name)
        (fun c => (put' c.rules).map (InstalledChain.mk c.chain)) (t.outline free).chains).map
          (List.map InstalledChain.outline) := by
    refine changeFirst_map (fun _ => rfl) InstalledChain.outline_idem fun c _ => ?_
    have there : c.outline.rules = c.rules.map RuleData.bare := rfl
    rw [there]
    rcases map_eq_cases (h c.rules) with ⟨rules, rules', hr, hr', e⟩ | ⟨e, hr, hr'⟩
    · rw [hr, hr']
      exact congrArg (fun rules => Except.ok (InstalledChain.mk c.chain rules)) e
    · rw [hr, hr']
      rfl
  rw [changeRules_eq, changeRules_eq]
  rcases map_eq_cases chains with ⟨cs, cs', hc, hc', e⟩ | ⟨e, hc, hc'⟩
  · rw [hc, hc']
    exact congrArg Except.ok (outline_congr e t.outline_sets.symm)
  · rw [hc, hc']
    rfl

end InstalledTable

/-- Whether a declaration picks a rule by its handle. -/
def Declaration.byHandle : Declaration → Bool
  | .insertRule _ before => before.isSome
  | .deleteRule _ _ _ => true
  | _ => false

namespace Ruleset

variable {free : Table → String → Bool} {r r' : Ruleset}

theorem outline_idem (r : Ruleset) : (r.outline free).outline free = r.outline free := by
  unfold outline
  rw [List.map_map]
  exact congrArg (Ruleset.mk · 0) (List.map_congr_left fun t _ => t.outline_idem)

theorem outline_set? (r : Ruleset) (t : Table) (name : String) :
    (r.outline free).set? t name = (r.set? t name).map (InstalledSet.outline (free t)) := by
  have tables : (r.outline free).table? t = (r.table? t).map (InstalledTable.outline free) := by
    unfold table? outline
    rw [List.find?_map]
    rfl
  rw [set?, set?, tables]
  cases found : r.table? t with
  | none => rfl
  | some i =>
    unfold table? at found
    have own : i.table = t := by simpa using List.find?_some found
    rw [Option.map_some, Option.bind_some, Option.bind_some, i.outline_set?, own]

theorem addTable_outline (t : Table) (is : List InstalledTable) :
    (addTable t is).map (InstalledTable.outline free) =
      (addTable t (is.map (InstalledTable.outline free))).map (InstalledTable.outline free) := by
  have again : ∀ is : List InstalledTable, (is.map (InstalledTable.outline free)).map
      (InstalledTable.outline free) = is.map (InstalledTable.outline free) := by
    intro is
    rw [List.map_map]
    exact List.map_congr_left fun i _ => i.outline_idem
  induction is with
  | nil => rfl
  | cons i is ih =>
    have named : (i.outline free).table = i.table := rfl
    rw [List.map_cons, addTable, addTable, named]
    split
    · rw [List.map_cons, List.map_cons, again, i.outline_idem]
    · split
      · simp only [List.map_cons, again, i.outline_idem]
      · rw [List.map_cons, List.map_cons, ← ih, i.outline_idem]

theorem changeTable_outline (t : Table) {f f' : InstalledTable → Except Rejection InstalledTable}
    (h : ∀ i, (f i).map (InstalledTable.outline free) =
      (f' (i.outline free)).map (InstalledTable.outline free)) :
    (r.changeTable t f).map (outline free) = ((r.outline free).changeTable t f').map (outline free) := by
  have tables : (changeFirst (fun i : InstalledTable => i.table = t) (Rejection.noTable t) f r.tables).map
        (List.map (InstalledTable.outline free)) =
      (changeFirst (fun i : InstalledTable => i.table = t) (Rejection.noTable t) f'
        (r.outline free).tables).map (List.map (InstalledTable.outline free)) :=
    changeFirst_map (fun _ => rfl) InstalledTable.outline_idem fun i _ => h i
  unfold changeTable
  rcases map_eq_cases tables with ⟨is, is', hi, hi', e⟩ | ⟨e, hi, hi'⟩
  · rw [hi, hi']
    exact congrArg (fun is => Except.ok (Ruleset.mk is 0)) e
  · rw [hi, hi']

theorem placeRule_eq (r : Ruleset) (rule : Rule)
    (put : RuleData → List RuleData → Except Rejection (List RuleData)) :
    r.placeRule rule put = (r.changeTable rule.table fun t =>
      (t.missingSet? rule.data.program.sets).elim
        (t.changeRules rule.chain (put (rule.data.withHandle (r.lastHandle + 1))))
        fun set => .error (.noSet set.name)).map fun r' => { r' with lastHandle := r.lastHandle + 1 } := by
  have place : ∀ (f' : InstalledTable → Except Rejection InstalledTable) {f}, (∀ t, f t = f' t) →
      r.changeTable rule.table f = r.changeTable rule.table f' :=
    fun _ _ same => congrArg (r.changeTable rule.table) (funext same)
  unfold placeRule
  dsimp only
  rw [place fun t => (t.missingSet? rule.data.program.sets).elim
    (t.changeRules rule.chain (put (rule.data.withHandle (r.lastHandle + 1))))
    fun set => .error (.noSet set.name)]
  · cases r.changeTable rule.table _
    · rfl
    · rfl
  · intro t
    cases t.missingSet? rule.data.program.sets
    · rfl
    · rfl

/-- A rule is placed in the same way, whatever handle it gets. -/
theorem placeRule_outline (rule : Rule) {put : RuleData → List RuleData → Except Rejection (List RuleData)}
    (h : ∀ data data' rules, data.bare = data'.bare → (put data rules).map (List.map RuleData.bare) =
      (put data' (rules.map RuleData.bare)).map (List.map RuleData.bare)) :
    (r.placeRule rule put).map (outline free) =
      ((r.outline free).placeRule rule put).map (outline free) := by
  have placed : ∀ last last' : Nat, (r.changeTable rule.table fun t =>
        (t.missingSet? rule.data.program.sets).elim
          (t.changeRules rule.chain (put (rule.data.withHandle last)))
          fun set => .error (.noSet set.name)).map (outline free) =
      ((r.outline free).changeTable rule.table fun t =>
        (t.missingSet? rule.data.program.sets).elim
          (t.changeRules rule.chain (put (rule.data.withHandle last')))
          fun set => .error (.noSet set.name)).map (outline free) := by
    intro last last'
    refine changeTable_outline rule.table fun i => ?_
    rw [i.outline_missingSet?]
    cases i.missingSet? rule.data.program.sets with
    | some set => rfl
    | none => exact i.changeRules_outline rule.chain fun rules => h _ _ rules rfl
  rw [placeRule_eq, placeRule_eq]
  rcases map_eq_cases (placed (r.lastHandle + 1) ((r.outline free).lastHandle + 1)) with
    ⟨r₁, r₂, h₁, h₂, e⟩ | ⟨e, h₁, h₂⟩
  · rw [h₁, h₂]
    exact congrArg Except.ok e
  · rw [h₁, h₂]
    rfl

/-- What a declaration makes of a ruleset depends on its outline, up to the outline. -/
theorem apply_outline (free : Table → String → Bool) {d : Declaration} (plain : d.byHandle = false) :
    (r.apply d).map (outline free) = ((r.outline free).apply d).map (outline free) := by
  cases d with
  | flushRuleset => rfl
  | addTable t =>
    show Except.ok (Ruleset.mk _ 0) = Except.ok (Ruleset.mk _ 0)
    rw [addTable_outline]
    rfl
  | addChain chain => exact changeTable_outline _ fun i => congrArg Except.ok (i.addChain_outline chain)
  | addSet set elements =>
    refine changeTable_outline _ fun i => ?_
    have sets := InstalledTable.addSet_outline (free i.table) set elements i.sets
    rcases map_eq_cases sets with ⟨ss, ss', hs, hs', e⟩ | ⟨e, hs, hs'⟩
    · have there : InstalledTable.addSet set elements (i.outline free).sets = .ok ss' := hs'
      rw [hs, there]
      exact congrArg Except.ok (InstalledTable.outline_congr i.outline_chains.symm e)
    · have there : InstalledTable.addSet set elements (i.outline free).sets = .error e := hs'
      rw [hs, there]
  | addElements set elements =>
    exact changeTable_outline _ fun i => i.changeElements_outline set.name _
  | deleteElements set elements =>
    exact changeTable_outline _ fun i => i.changeElements_outline set.name _
  | addRule rule =>
    rw [apply, apply]
    refine placeRule_outline rule fun data data' rules same => ?_
    show Except.ok _ = Except.ok _
    simp [same, RuleData.bare_idem]
  | insertRule rule before =>
    cases before with
    | none =>
      rw [apply, apply]
      refine placeRule_outline rule fun data data' rules same => ?_
      show Except.ok _ = Except.ok _
      simp [same, RuleData.bare_idem]
    | some handle => cases plain
  | deleteRule table chain handle => cases plain

/-- What a batch makes of a ruleset depends on its outline, up to the outline. -/
theorem applyAll_outline (free : Table → String → Bool) (r : Ruleset) {batch : Batch}
    (plain : ∀ d ∈ batch, d.byHandle = false) (index : Nat) :
    (r.applyAll index batch).map (outline free) =
      ((r.outline free).applyAll index batch).map (outline free) := by
  induction batch generalizing r index with
  | nil => exact congrArg Except.ok r.outline_idem.symm
  | cons d ds ih =>
    obtain ⟨first, rest⟩ := List.forall_mem_cons.mp plain
    rw [applyAll, applyAll]
    rcases map_eq_cases (r.apply_outline free first) with ⟨r₁, r₂, h₁, h₂, e⟩ | ⟨e, h₁, h₂⟩
    · -- Both rulesets behind the first declaration have one outline, which decides the rest of both runs.
      rw [h₁, h₂]
      dsimp only
      rw [ih r₁ rest, e, ← ih r₂ rest]
    · rw [h₁, h₂]

/-- A batch behind a flush makes the same of all rulesets, up to the outline. -/
theorem applyAll_flush_outline (free : Table → String → Bool) (r r' : Ruleset) {batch : Batch}
    (plain : ∀ d ∈ batch, d.byHandle = false) (index : Nat) :
    (r.applyAll index (.flushRuleset :: batch)).map (outline free) =
      (r'.applyAll index (.flushRuleset :: batch)).map (outline free) := by
  have first : ∀ r : Ruleset, (r.applyAll index (.flushRuleset :: batch)).map (outline free) =
      (({ r with tables := [] } : Ruleset).applyAll (index + 1) batch).map (outline free) := fun _ => rfl
  have same : ({ r with tables := [] } : Ruleset).outline free =
      ({ r' with tables := [] } : Ruleset).outline free := rfl
  rw [first, first, applyAll_outline free _ plain, same, ← applyAll_outline free _ plain]

/-- A batch behind a flush installs on any ruleset what it installs on an empty one, up to handles. -/
theorem applyAll_anywhere {batch : Batch} {index : Nat} (plain : ∀ d ∈ batch, d.byHandle = false)
    (h : r.applyAll index (.flushRuleset :: batch) = .ok r') :
    ∃ e, empty.applyAll index (.flushRuleset :: batch) = .ok e ∧ r'.outline free = e.outline free := by
  rcases map_eq_cases (applyAll_flush_outline free r empty plain index) with
    ⟨r₁, e, here, there, same⟩ | ⟨fault, here, -⟩
  · cases h.symm.trans here
    exact ⟨e, there, same⟩
  · cases h.symm.trans here

/-- The elements of a set that is free to change leave no trace in the outline. -/
theorem changeElements_unseen {set : MatchSet} {f : List Element → List Element}
    (isFree : free set.table set.name = true)
    (h : (r.changeTable set.table fun t => t.changeElements set.name f) = .ok r') :
    r'.outline free = r.outline free := by
  unfold changeTable at h
  split at h
  · rename_i tables hc
    cases h
    refine congrArg (Ruleset.mk · 0) (changeFirst_unseen (fun i j hi hj => ?_) hc)
    have here : i.table = set.table := of_decide_eq_true hi
    unfold InstalledTable.changeElements at hj
    split at hj
    · rename_i sets hs
      cases hj
      refine InstalledTable.outline_congr rfl (changeFirst_unseen (fun s s' hn hs' => ?_) hs)
      have named : s.set.name = set.name := of_decide_eq_true hn
      cases hs'
      exact InstalledSet.outline_free (by rw [here, named, isFree]) rfl
    · cases hj
  · cases h

end Ruleset

end Firewall
