import Firewall.Proofs.Table

namespace Firewall

def RuleData.withHandle (data : RuleData) (handle : Nat) : RuleData :=
  { data with handle := some handle, position := none }

namespace Ruleset

variable {r r' : Ruleset} {t : Table} {f : InstalledTable → Except Rejection InstalledTable}

/-- Tables are in order, and the sets of each table. -/
structure Ordered (r : Ruleset) : Prop where
  tables : (r.tables.map (·.table)).Pairwise fun a b => a.before b = true
  sets : ∀ i ∈ r.tables, InstalledTable.Ordered i.sets

theorem addTable_find? {is : List InstalledTable}
    (ordered : (is.map (·.table)).Pairwise fun a b => a.before b = true) (t' : Table) :
    (addTable t is).find? (fun i => i.table = t') =
      if t' = t then some ((is.find? fun i => i.table = t').getD ⟨t, [], []⟩)
      else is.find? fun i => i.table = t' := by
  induction is with
  | nil =>
    by_cases ht : t' = t
    · simp [addTable, ht]
    · have other : ¬ t = t' := fun e => ht e.symm
      simp [addTable, ht, other]
  | cons i is ih =>
    obtain ⟨first, rest⟩ := List.pairwise_cons.mp ordered
    unfold addTable
    split
    · rename_i same
      by_cases ht : t' = t
      · simp [ht, same]
      · simp [ht]
    · rename_i ne
      split
      · rename_i before
        by_cases ht : t' = t
        · have absent : (i :: is).find? (fun i => i.table = t') = none := by
            rw [List.find?_eq_none]
            intro j hj
            have below : t.before j.table = true := by
              rcases List.mem_cons.mp hj with rfl | later
              · exact before
              · exact Table.before_trans before (first _ (List.mem_map_of_mem later))
            have apart : j.table ≠ t := by
              intro e
              rw [e, Table.before_irrefl] at below
              cases below
            simpa [ht] using apart
          rw [absent]
          simp [ht]
        · have other : ¬ t = t' := fun e => ht e.symm
          simp [ht, other]
      · by_cases hi : i.table = t'
        · have other : ¬ t' = t := fun e => ne (hi.trans e)
          simp [hi, other]
        · simp [hi, ih rest]

theorem addTable_mem {is : List InstalledTable} {i : InstalledTable} (h : i ∈ addTable t is) :
    i = ⟨t, [], []⟩ ∨ i ∈ is := by
  induction is with
  | nil => exact List.mem_cons.mp h
  | cons j is ih =>
    unfold addTable at h
    split at h
    · exact .inr h
    · split at h
      · exact List.mem_cons.mp h
      · rcases List.mem_cons.mp h with rfl | later
        · exact .inr List.mem_cons_self
        · rcases ih later with new | old
          · exact .inl new
          · exact .inr (List.mem_cons_of_mem j old)

theorem addTable_ordered {is : List InstalledTable}
    (ordered : (is.map (·.table)).Pairwise fun a b => a.before b = true) :
    ((addTable t is).map (·.table)).Pairwise fun a b => a.before b = true := by
  induction is with
  | nil => exact List.pairwise_singleton _ _
  | cons i is ih =>
    obtain ⟨first, rest⟩ := List.pairwise_cons.mp ordered
    unfold addTable
    split
    · exact ordered
    · rename_i ne
      split
      · rename_i before
        refine List.pairwise_cons.mpr ⟨?_, ordered⟩
        intro t' ht
        rcases List.mem_cons.mp ht with rfl | later
        · exact before
        · exact Table.before_trans before (first t' later)
      · rename_i notBefore
        refine List.pairwise_cons.mpr ⟨?_, ih rest⟩
        intro t' ht
        obtain ⟨j, hj, rfl⟩ := List.mem_map.mp ht
        rcases addTable_mem hj with rfl | old
        · exact Table.before_total notBefore ne
        · exact first _ (List.mem_map_of_mem old)

/-- One table is changed, and nothing else. -/
theorem changeTable_ok (keeps : ∀ i j, f i = .ok j → j.table = i.table)
    (h : r.changeTable t f = .ok r') :
    r'.lastHandle = r.lastHandle ∧ ∃ i j, r.table? t = some i ∧ f i = .ok j ∧
      ∀ t', r'.table? t' = if t' = t then some j else r.table? t' := by
  unfold changeTable at h
  split at h
  · rename_i tables hc
    cases h
    exact ⟨rfl, changeFirst_ok (fun i j e hf => (keeps i j hf).trans e) hc⟩
  · cases h

theorem changeTable_ordered (ordered : r.Ordered) (keeps : ∀ i j, f i = .ok j → j.table = i.table)
    (sets : ∀ i j, f i = .ok j → InstalledTable.Ordered i.sets → InstalledTable.Ordered j.sets)
    (h : r.changeTable t f = .ok r') : r'.Ordered := by
  unfold changeTable at h
  split at h
  · rename_i tables hc
    cases h
    constructor
    · show (tables.map (·.table)).Pairwise _
      rw [changeFirst_keys (fun i j e hf => (keeps i j hf).trans e) hc]
      exact ordered.tables
    · intro j hj
      rcases changeFirst_mem hc hj with old | ⟨i, hi, hf⟩
      · exact ordered.sets j old
      · exact sets i j hf (ordered.sets i hi)
  · cases h

theorem changeTable_chain? (keeps : ∀ i j, f i = .ok j → j.table = i.table)
    (same : ∀ i j, f i = .ok j → j.chains = i.chains) (h : r.changeTable t f = .ok r') (t' : Table)
    (name : String) : r'.chain? t' name = r.chain? t' name := by
  obtain ⟨-, i, j, found, hf, view⟩ := changeTable_ok keeps h
  unfold chain?
  rw [view]
  by_cases ht : t' = t
  · rw [if_pos ht, ht, found, Option.bind_some, Option.bind_some, InstalledTable.chain?,
      InstalledTable.chain?, same i j hf]
  · rw [if_neg ht]

end Ruleset

/-- What a declaration makes of the set of a table that has a name. -/
def Declaration.onSet (t : Table) (name : String) :
    Declaration → Option InstalledSet → Option InstalledSet
  | .flushRuleset, _ => none
  | .addSet set elements, s =>
    if t = set.table ∧ name = set.name then some (.declare set elements s) else s
  | .addElements set elements, s =>
    if t = set.table ∧ name = set.name then
      s.map fun s => { s with elements := Firewall.addElements s.elements elements }
    else s
  | .deleteElements set elements, s =>
    if t = set.table ∧ name = set.name then
      s.map fun s => { s with elements := removeElements s.elements elements }
    else s
  | .addTable _, s => s
  | .addChain _, s => s
  | .addRule _, s => s
  | .insertRule _ _, s => s
  | .deleteRule _ _ _, s => s

def Declaration.setKey? : Declaration → Option (Table × String)
  | .addSet set _ => some (set.table, set.name)
  | .addElements set _ => some (set.table, set.name)
  | .deleteElements set _ => some (set.table, set.name)
  | _ => none

def Declaration.chainKey? : Declaration → Option (Table × String)
  | .addChain chain => some (chain.table, chain.name)
  | .addRule rule => some (rule.table, rule.chain)
  | .insertRule rule _ => some (rule.table, rule.chain)
  | .deleteRule table chain _ => some (table, chain)
  | _ => none

/-- What a declaration makes of the chain of a table that has a name, in a ruleset whose greatest handle
is `last`. -/
def Declaration.onChain (t : Table) (name : String) (last : Nat) :
    Declaration → Option InstalledChain → Option InstalledChain
  | .flushRuleset, _ => none
  | .addChain chain, c =>
    if t = chain.table ∧ name = chain.name then some ⟨chain, (c.map (·.rules)).getD []⟩ else c
  | .addRule rule, c =>
    if t = rule.table ∧ name = rule.chain then
      c.map fun c => { c with rules := c.rules ++ [rule.data.withHandle (last + 1)] }
    else c
  | .insertRule rule none, c =>
    if t = rule.table ∧ name = rule.chain then
      c.map fun c => { c with rules := rule.data.withHandle (last + 1) :: c.rules }
    else c
  | .insertRule rule (some handle), c =>
    if t = rule.table ∧ name = rule.chain then
      c.bind fun c => (insertBefore handle (rule.data.withHandle (last + 1)) c.rules).toOption.map
        fun rules => { c with rules }
    else c
  | .deleteRule table chain handle, c =>
    if t = table ∧ name = chain then
      c.map fun c => { c with rules := c.rules.filter fun r => r.handle != some handle }
    else c
  | .addTable _, c => c
  | .addSet _ _, c => c
  | .addElements _ _, c => c
  | .deleteElements _ _, c => c

def Declaration.table? : Declaration → Option Table
  | .flushRuleset => none
  | .addTable table => some table
  | .addChain chain => some chain.table
  | .addSet set _ => some set.table
  | .addElements set _ => some set.table
  | .deleteElements set _ => some set.table
  | .addRule rule => some rule.table
  | .insertRule rule _ => some rule.table
  | .deleteRule table _ _ => some table

/-- Whether a declaration gives out a handle. -/
def Declaration.placesRule : Declaration → Bool
  | .addRule _ => true
  | .insertRule _ _ => true
  | _ => false

namespace Declaration

variable {d : Declaration} {t t' : Table} {name : String}

/-- A set is changed only by a declaration that names it. -/
theorem onSet_unnamed (quiet : d ≠ .flushRuleset) (other : d.setKey? ≠ some (t, name))
    (s : Option InstalledSet) : d.onSet t name s = s := by
  cases d with
  | flushRuleset => exact absurd rfl quiet
  | addSet set elements =>
    refine if_neg fun both => other ?_
    rw [setKey?, both.1, both.2]
  | addElements set elements =>
    refine if_neg fun both => other ?_
    rw [setKey?, both.1, both.2]
  | deleteElements set elements =>
    refine if_neg fun both => other ?_
    rw [setKey?, both.1, both.2]
  | addTable | addChain | addRule | insertRule | deleteRule => rfl

/-- A chain is changed only by a declaration that names it. -/
theorem onChain_unnamed (quiet : d ≠ .flushRuleset) (other : d.chainKey? ≠ some (t, name)) (last : Nat)
    (c : Option InstalledChain) : d.onChain t name last c = c := by
  cases d with
  | flushRuleset => exact absurd rfl quiet
  | addChain chain =>
    refine if_neg fun both => other ?_
    rw [chainKey?, both.1, both.2]
  | addRule rule =>
    refine if_neg fun both => other ?_
    rw [chainKey?, both.1, both.2]
  | insertRule rule before =>
    have named : ¬ (t = rule.table ∧ name = rule.chain) := by
      intro both
      apply other
      rw [chainKey?, both.1, both.2]
    cases before with
    | none => exact if_neg named
    | some handle => exact if_neg named
  | deleteRule table chain handle =>
    refine if_neg fun both => other ?_
    rw [chainKey?, both.1, both.2]
  | addTable | addSet | addElements | deleteElements => rfl

theorem setKey?_table {key : Table × String} (h : d.setKey? = some key) : d.table? = some key.1 := by
  cases d with
  | addSet | addElements | deleteElements =>
    cases h
    rfl
  | flushRuleset | addTable | addChain | addRule | insertRule | deleteRule => cases h

theorem chainKey?_table {key : Table × String} (h : d.chainKey? = some key) : d.table? = some key.1 := by
  cases d with
  | addChain | addRule | insertRule | deleteRule =>
    cases h
    rfl
  | flushRuleset | addTable | addSet | addElements | deleteElements => cases h

theorem ne_flush (own : d.table? = some t) : d ≠ .flushRuleset := by
  rintro rfl
  cases own

/-- Nothing is changed in other tables. -/
theorem onSet_elsewhere (own : d.table? = some t) (other : t' ≠ t) (s : Option InstalledSet) :
    d.onSet t' name s = s := by
  refine onSet_unnamed (ne_flush own) ?_ s
  intro named
  cases own.symm.trans (setKey?_table named)
  exact other rfl

theorem onChain_elsewhere (own : d.table? = some t) (other : t' ≠ t) (last : Nat)
    (c : Option InstalledChain) : d.onChain t' name last c = c := by
  refine onChain_unnamed (ne_flush own) ?_ last c
  intro named
  cases own.symm.trans (chainKey?_table named)
  exact other rfl

end Declaration

namespace Ruleset

variable {r r' : Ruleset} {d : Declaration} {t : Table}
  {f : InstalledTable → Except Rejection InstalledTable}

/-- A change of the elements of a set changes nothing else. -/
theorem changeElements_step {set : MatchSet} {f : List Element → List Element}
    (h : (r.changeTable set.table fun t => t.changeElements set.name f) = .ok r') :
    (∀ t name, r'.set? t name =
      if t = set.table ∧ name = set.name then
        (r.set? t name).map fun s => { s with elements := f s.elements }
      else r.set? t name) ∧
      (∀ t name, r'.chain? t name = r.chain? t name) ∧ r'.lastHandle = r.lastHandle ∧
      (r.Ordered → r'.Ordered) := by
  have keeps : ∀ i j : InstalledTable, i.changeElements set.name f = .ok j → j.table = i.table :=
    fun i j e => (InstalledTable.changeElements_ok e).1
  have chains : ∀ i j : InstalledTable, i.changeElements set.name f = .ok j → j.chains = i.chains :=
    fun i j e => (InstalledTable.changeElements_ok e).2.1
  obtain ⟨handle, i, j, found, e, view⟩ := changeTable_ok keeps h
  obtain ⟨-, -, -, s, hs, sets⟩ := InstalledTable.changeElements_ok e
  refine ⟨?_, changeTable_chain? keeps chains h, handle, ?_⟩
  · intro t name
    unfold set?
    rw [view]
    by_cases ht : t = set.table
    · rw [if_pos ht, ht, found, Option.bind_some, Option.bind_some, sets]
      by_cases hn : name = set.name
      · simp [hn, hs]
      · simp [hn]
    · rw [if_neg ht, if_neg (fun both => ht both.1)]
  · intro ordered
    refine changeTable_ordered ordered keeps ?_ h
    intro i j e sorted
    rw [InstalledTable.Ordered, (InstalledTable.changeElements_ok e).2.2.1]
    exact sorted

/-- What a declaration makes of a ruleset. -/
structure Step (r : Ruleset) (d : Declaration) (r' : Ruleset) : Prop where
  ordered : r'.Ordered
  lastHandle : r'.lastHandle = if d.placesRule then r.lastHandle + 1 else r.lastHandle
  set? : ∀ t name, r'.set? t name = d.onSet t name (r.set? t name)
  chain? : ∀ t name, r'.chain? t name = d.onChain t name r.lastHandle (r.chain? t name)

/-- A declaration that changes one table is known by what it makes of the sets and chains of that table. -/
theorem changeTable_step {last : Nat} (ordered : r.Ordered) (own : d.table? = some t)
    (keeps : ∀ i j, f i = .ok j → j.table = i.table)
    (step : ∀ i j, InstalledTable.Ordered i.sets → f i = .ok j →
      InstalledTable.Ordered j.sets ∧ (∀ name, j.set? name = d.onSet t name (i.set? name)) ∧
        ∀ name, j.chain? name = d.onChain t name last (i.chain? name))
    (h : r.changeTable t f = .ok r') :
    r'.Ordered ∧ r'.lastHandle = r.lastHandle ∧
      (∀ t' name, r'.set? t' name = d.onSet t' name (r.set? t' name)) ∧
        ∀ t' name, r'.chain? t' name = d.onChain t' name last (r.chain? t' name) := by
  obtain ⟨handle, i, j, found, e, view⟩ := changeTable_ok keeps h
  obtain ⟨-, sets, chains⟩ := step i j (ordered.sets i (List.mem_of_find?_eq_some found)) e
  refine ⟨changeTable_ordered ordered keeps (fun i j e sorted => (step i j sorted e).1) h, handle,
    ?_, ?_⟩
  · intro t' name
    rw [set?, view]
    by_cases ht : t' = t
    · rw [if_pos ht, ht, set?, found]
      exact sets name
    · rw [if_neg ht, Declaration.onSet_elsewhere own ht]
      rfl
  · intro t' name
    rw [chain?, view]
    by_cases ht : t' = t
    · rw [if_pos ht, ht, chain?, found]
      exact chains name
    · rw [if_neg ht, Declaration.onChain_elsewhere own ht]
      rfl

theorem addTable_step (ordered : r.Ordered) (table : Table) :
    Step r (.addTable table) { r with tables := addTable table r.tables } := by
  have view : ∀ t, ({ r with tables := addTable table r.tables } : Ruleset).table? t =
      if t = table then some ((r.table? t).getD ⟨table, [], []⟩) else r.table? t :=
    addTable_find? ordered.tables
  refine ⟨⟨addTable_ordered ordered.tables, ?_⟩, rfl, ?_, ?_⟩
  · intro i hi
    rcases addTable_mem hi with rfl | old
    · exact List.Pairwise.nil
    · exact ordered.sets i old
  · intro t name
    rw [set?, view, Declaration.onSet, set?]
    by_cases ht : t = table
    · rw [if_pos ht]
      cases r.table? t with
      | none => rfl
      | some i => rfl
    · rw [if_neg ht]
  · intro t name
    rw [chain?, view, Declaration.onChain, chain?]
    by_cases ht : t = table
    · rw [if_pos ht]
      cases r.table? t with
      | none => rfl
      | some i => rfl
    · rw [if_neg ht]

theorem addChain_step {chain : Chain} (ordered : r.Ordered)
    (h : (r.changeTable chain.table fun t => .ok (t.addChain chain)) = .ok r') :
    Step r (.addChain chain) r' := by
  obtain ⟨ordered, handle, sets, chains⟩ := changeTable_step (d := .addChain chain) ordered rfl (by
    intro i j e
    cases e
    exact i.addChain_table chain) (by
    intro i j sorted e
    cases e
    refine ⟨i.addChain_sets chain ▸ sorted, ?_, ?_⟩
    · intro name
      rw [InstalledTable.set?, i.addChain_sets]
      rfl
    · intro name
      rw [i.addChain_chain?, Declaration.onChain]
      simp) h
  exact ⟨ordered, handle, sets, chains⟩

theorem addSet_step {set : MatchSet} {elements : List Element} (ordered : r.Ordered)
    (h : r.apply (.addSet set elements) = .ok r') : Step r (.addSet set elements) r' := by
  obtain ⟨ordered, handle, sets, chains⟩ := changeTable_step (d := .addSet set elements) ordered rfl (by
    intro i j e
    split at e
    · cases e
      rfl
    · cases e) (by
    intro i j sorted e
    split at e
    · rename_i sets hs
      cases e
      refine ⟨InstalledTable.addSet_ordered sorted hs, ?_, fun name => rfl⟩
      intro name
      rw [InstalledTable.set?, InstalledTable.addSet_find? sorted hs, Declaration.onSet]
      simp [InstalledTable.set?]
    · cases e) h
  exact ⟨ordered, handle, sets, chains⟩

/-- A change of the rules of a chain is known by what it makes of that chain. -/
theorem changeRules_step {table : Table} {chain : String} {last : Nat} {i j : InstalledTable}
    {put : List RuleData → Except Rejection (List RuleData)} (plain : d.setKey? = none)
    (named : d.chainKey? = some (table, chain))
    (here : ∀ c rules, put c.rules = .ok rules →
      d.onChain table chain last (some c) = some { c with rules })
    (sorted : InstalledTable.Ordered i.sets) (h : i.changeRules chain put = .ok j) :
    InstalledTable.Ordered j.sets ∧ (∀ name, j.set? name = d.onSet table name (i.set? name)) ∧
      ∀ name, j.chain? name = d.onChain table name last (i.chain? name) := by
  have quiet := Declaration.ne_flush (Declaration.chainKey?_table named)
  obtain ⟨-, same, c, rules, found, hput, view⟩ := InstalledTable.changeRules_ok h
  refine ⟨same ▸ sorted, ?_, ?_⟩
  · intro name
    have other : d.setKey? ≠ some (table, name) := by
      rw [plain]
      intro e
      cases e
    rw [InstalledTable.set?, same, Declaration.onSet_unnamed quiet other]
    rfl
  · intro name
    rw [view]
    by_cases hn : name = chain
    · rw [if_pos hn, hn, found, here c rules hput]
    · have other : d.chainKey? ≠ some (table, name) := by
        rw [named]
        intro e
        cases e
        exact hn rfl
      rw [if_neg hn, Declaration.onChain_unnamed quiet other]

/-- A rule is placed among those of its chain, and nothing else changes. -/
theorem placeRule_step {rule : Rule}
    {put : RuleData → List RuleData → Except Rejection (List RuleData)} (ordered : r.Ordered)
    (h : r.placeRule rule put = .ok r') (plain : d.setKey? = none)
    (named : d.chainKey? = some (rule.table, rule.chain)) (places : d.placesRule = true)
    (here : ∀ c rules, put (rule.data.withHandle (r.lastHandle + 1)) c.rules = .ok rules →
      d.onChain rule.table rule.chain r.lastHandle (some c) = some { c with rules }) :
    Step r d r' := by
  unfold placeRule at h
  dsimp only at h
  split at h
  · rename_i r₁ placed
    cases h
    obtain ⟨order, -, sets, chains⟩ := changeTable_step ordered (Declaration.chainKey?_table named) (by
      intro i j e
      split at e
      · cases e
      · exact (InstalledTable.changeRules_ok e).1) (by
      intro i j sorted e
      split at e
      · cases e
      · exact changeRules_step plain named here sorted e) placed
    refine ⟨⟨order.tables, order.sets⟩, ?_, sets, chains⟩
    rw [places]
    rfl
  · cases h

theorem deleteRule_step {table : Table} {chain : String} {handle : Nat} (ordered : r.Ordered)
    (h : (r.changeTable table fun t => t.changeRules chain (deleteHandle handle)) = .ok r') :
    Step r (.deleteRule table chain handle) r' := by
  have here : ∀ c rules, deleteHandle handle c.rules = .ok rules →
      Declaration.onChain table chain r.lastHandle (.deleteRule table chain handle) (some c) =
        some { c with rules } := by
    intro c rules e
    unfold deleteHandle at e
    dsimp only at e
    split at e
    · cases e
    · cases e
      exact if_pos ⟨rfl, rfl⟩
  obtain ⟨order, last, sets, chains⟩ := changeTable_step (d := .deleteRule table chain handle)
    ordered rfl (by
    intro i j e
    exact (InstalledTable.changeRules_ok e).1) (by
    intro i j sorted e
    exact changeRules_step rfl rfl here sorted e) h
  exact ⟨order, last, sets, chains⟩

/-- Each declaration makes of a ruleset what it says. -/
theorem apply_step (ordered : r.Ordered) (h : r.apply d = .ok r') : Step r d r' := by
  cases d with
  | flushRuleset =>
    cases h
    exact ⟨⟨List.Pairwise.nil, fun i hi => absurd hi List.not_mem_nil⟩, rfl, fun _ _ => rfl,
      fun _ _ => rfl⟩
  | addTable table =>
    cases h
    exact addTable_step ordered table
  | addChain chain => exact addChain_step ordered h
  | addSet set elements => exact addSet_step ordered h
  | addElements set elements =>
    obtain ⟨sets, chains, handle, order⟩ := changeElements_step h
    exact ⟨order ordered, handle, sets, chains⟩
  | deleteElements set elements =>
    obtain ⟨sets, chains, handle, order⟩ := changeElements_step h
    exact ⟨order ordered, handle, sets, chains⟩
  | addRule rule =>
    unfold apply at h
    refine placeRule_step ordered h rfl rfl rfl fun c rules e => ?_
    cases e
    exact if_pos ⟨rfl, rfl⟩
  | insertRule rule before =>
    cases before with
    | none =>
      unfold apply at h
      refine placeRule_step ordered h rfl rfl rfl fun c rules e => ?_
      cases e
      exact if_pos ⟨rfl, rfl⟩
    | some handle =>
      unfold apply at h
      refine placeRule_step ordered h rfl rfl rfl fun c rules e => ?_
      rw [Declaration.onChain, if_pos ⟨rfl, rfl⟩, Option.bind_some, e]
      rfl
  | deleteRule table chain handle => exact deleteRule_step ordered h

/-- What a batch makes of the set of a table that has a name. -/
def onSet (t : Table) (name : String) (batch : Batch) (s : Option InstalledSet) :
    Option InstalledSet :=
  batch.foldl (fun s d => d.onSet t name s) s

/-- What a batch makes of the chain of a table that has a name, in a ruleset whose greatest handle is
`last`. -/
def onChain (t : Table) (name : String) (last : Nat) :
    Batch → Option InstalledChain → Option InstalledChain
  | [], c => c
  | d :: ds, c =>
    onChain t name (if d.placesRule then last + 1 else last) ds (d.onChain t name last c)

theorem applyAll_cons {index : Nat} {ds : Batch} (h : r.applyAll index (d :: ds) = .ok r') :
    ∃ r₁, r.apply d = .ok r₁ ∧ r₁.applyAll (index + 1) ds = .ok r' := by
  unfold applyAll at h
  split at h
  · exact ⟨_, ‹_›, h⟩
  · cases h

/-- What every declaration keeps, a batch keeps. -/
theorem applyAll_keeps {I : Ruleset → Prop} {index : Nat} {ds : Batch}
    (step : ∀ {r d r'}, d ∈ ds → I r → r.apply d = .ok r' → I r') (start : I r)
    (h : r.applyAll index ds = .ok r') : I r' := by
  induction ds generalizing r index with
  | nil =>
    cases h
    exact start
  | cons d ds ih =>
    obtain ⟨r₁, first, rest⟩ := applyAll_cons h
    exact ih (fun later => step (List.mem_cons_of_mem d later)) (step List.mem_cons_self start first) rest

/-- A batch in two parts. -/
theorem applyAll_append (r : Ruleset) (index : Nat) (ds ds' : Batch) :
    r.applyAll index (ds ++ ds') =
      match r.applyAll index ds with
      | .ok r' => r'.applyAll (index + ds.length) ds'
      | .error fault => .error fault := by
  induction ds generalizing r index with
  | nil => rfl
  | cons d ds ih =>
    rw [List.cons_append, applyAll, applyAll]
    cases r.apply d with
    | error cause => rfl
    | ok r₁ =>
      dsimp only
      rw [ih, List.length_cons, Nat.add_right_comm, Nat.add_assoc]

theorem applyAll_ordered {index : Nat} {ds : Batch} (ordered : r.Ordered)
    (h : r.applyAll index ds = .ok r') : r'.Ordered :=
  applyAll_keeps (fun _ ordered h => (apply_step ordered h).ordered) ordered h

theorem applyAll_set? {index : Nat} {ds : Batch} (ordered : r.Ordered)
    (h : r.applyAll index ds = .ok r') (t : Table) (name : String) :
    r'.set? t name = onSet t name ds (r.set? t name) := by
  induction ds generalizing r index with
  | nil =>
    cases h
    rfl
  | cons d ds ih =>
    obtain ⟨r₁, first, rest⟩ := applyAll_cons h
    have step := apply_step ordered first
    rw [ih step.ordered rest, step.set?]
    rfl

theorem applyAll_chain? {index : Nat} {ds : Batch} (ordered : r.Ordered)
    (h : r.applyAll index ds = .ok r') (t : Table) (name : String) :
    r'.chain? t name = onChain t name r.lastHandle ds (r.chain? t name) := by
  induction ds generalizing r index with
  | nil =>
    cases h
    rfl
  | cons d ds ih =>
    obtain ⟨r₁, first, rest⟩ := applyAll_cons h
    have step := apply_step ordered first
    rw [ih step.ordered rest, step.chain?, step.lastHandle]
    rfl

section Fresh

variable {t : Table} {name : String} {batch : Batch}

theorem onSet_append (ds ds' : Batch) (s : Option InstalledSet) :
    onSet t name (ds ++ ds') s = onSet t name ds' (onSet t name ds s) :=
  List.foldl_append

theorem not_named_later {κ : Type} {key? : Declaration → Option κ} {k : κ} {d : Declaration} {ds : Batch}
    (h : k ∉ (d :: ds).filterMap key?) : k ∉ ds.filterMap key? := by
  intro later
  apply h
  rw [List.filterMap_cons]
  split
  · exact later
  · exact List.mem_cons_of_mem _ later

theorem not_named_first {κ : Type} {key? : Declaration → Option κ} {k : κ} {d : Declaration} {ds : Batch}
    (h : k ∉ (d :: ds).filterMap key?) : key? d ≠ some k := by
  intro named
  apply h
  rw [List.filterMap_cons_some named]
  exact List.mem_cons_self

theorem not_flush_first {d : Declaration} {ds : Batch} (h : .flushRuleset ∉ d :: ds) :
    d ≠ .flushRuleset := by
  rintro rfl
  exact h List.mem_cons_self

/-- What a declaration names once is named by no declaration before or after it. -/
theorem named_once {κ : Type} {key? : Declaration → Option κ} {k : κ} {d : Declaration}
    (nodup : (batch.filterMap key?).Nodup) (h : d ∈ batch) (named : key? d = some k) :
    ∃ before after, batch = before ++ d :: after ∧ k ∉ before.filterMap key? ∧
      k ∉ after.filterMap key? := by
  obtain ⟨before, after, rfl⟩ := List.append_of_mem h
  rw [List.filterMap_append, List.filterMap_cons_some named] at nodup
  have apart := List.nodup_append.mp nodup
  refine ⟨before, after, rfl, ?_, (List.nodup_cons.mp apart.2.1).1⟩
  intro earlier
  exact apart.2.2 k earlier k List.mem_cons_self rfl

/-- A set is changed only by declarations that name it. -/
theorem onSet_other {s : Option InstalledSet} (noFlush : .flushRuleset ∉ batch)
    (other : (t, name) ∉ batch.filterMap Declaration.setKey?) : onSet t name batch s = s := by
  induction batch generalizing s with
  | nil => rfl
  | cons d ds ih =>
    have rest : onSet t name ds s = s :=
      ih (fun h => noFlush (List.mem_cons_of_mem d h)) (not_named_later other)
    have here : d.onSet t name s = s :=
      Declaration.onSet_unnamed (not_flush_first noFlush) (not_named_first other) s
    show onSet t name ds (d.onSet t name s) = s
    rw [here, rest]

/-- A set that is not there only comes to be by a declaration that names it. -/
theorem onSet_absent (other : (t, name) ∉ batch.filterMap Declaration.setKey?) :
    onSet t name batch none = none := by
  induction batch with
  | nil => rfl
  | cons d ds ih =>
    have here : d.onSet t name none = none := by
      by_cases flush : d = .flushRuleset
      · rw [flush]
        rfl
      · exact Declaration.onSet_unnamed flush (not_named_first other) none
    show onSet t name ds (d.onSet t name none) = none
    rw [here, ih (not_named_later other)]

/-- A set that is declared, and named nowhere else, is there unless the ruleset is flushed behind it. -/
theorem onSet_introduced {front back : Batch} {set : MatchSet} {elements : List Element}
    (before : (set.table, set.name) ∉ front.filterMap Declaration.setKey?)
    (behind : (set.table, set.name) ∉ back.filterMap Declaration.setKey?) (kept : .flushRuleset ∉ back) :
    onSet set.table set.name (front ++ .addSet set elements :: back) none =
      some ⟨set, Firewall.addElements [] elements⟩ := by
  have declared : Declaration.onSet set.table set.name (.addSet set elements) none =
      some ⟨set, Firewall.addElements [] elements⟩ := if_pos ⟨rfl, rfl⟩
  rw [onSet_append, onSet_absent before]
  show onSet set.table set.name back
    (Declaration.onSet set.table set.name (.addSet set elements) none) = _
  rw [declared, onSet_other kept behind]

/-- A set that a batch declares, and names nowhere else, is there behind it. -/
theorem onSet_declared {set : MatchSet} {elements : List Element} (noFlush : .flushRuleset ∉ batch)
    (nodup : (batch.filterMap Declaration.setKey?).Nodup) (h : .addSet set elements ∈ batch) :
    onSet set.table set.name batch none = some ⟨set, Firewall.addElements [] elements⟩ := by
  obtain ⟨before, after, rfl, earlier, later⟩ := named_once nodup h rfl
  exact onSet_introduced earlier later fun h =>
    noFlush (List.mem_append_right _ (List.mem_cons_of_mem _ h))

def handleBehind (last : Nat) (batch : Batch) : Nat :=
  batch.foldl (fun last d => if d.placesRule then last + 1 else last) last

theorem onChain_append (last : Nat) (ds ds' : Batch) (c : Option InstalledChain) :
    onChain t name last (ds ++ ds') c =
      onChain t name (handleBehind last ds) ds' (onChain t name last ds c) := by
  induction ds generalizing last c with
  | nil => rfl
  | cons d ds ih => exact ih _ _

/-- A chain is changed only by declarations that name it. -/
theorem onChain_other {last : Nat} {c : Option InstalledChain} (noFlush : .flushRuleset ∉ batch)
    (other : (t, name) ∉ batch.filterMap Declaration.chainKey?) :
    onChain t name last batch c = c := by
  induction batch generalizing last c with
  | nil => rfl
  | cons d ds ih =>
    have rest : ∀ last, onChain t name last ds c = c := by
      intro last
      exact ih (fun h => noFlush (List.mem_cons_of_mem d h)) (not_named_later other)
    have here : d.onChain t name last c = c :=
      Declaration.onChain_unnamed (not_flush_first noFlush) (not_named_first other) last c
    show onChain t name _ ds (d.onChain t name last c) = c
    rw [here, rest]

/-- A chain that a batch declares, and names nowhere else, is there behind it without rules. -/
theorem onChain_declared {chain : Chain} {last : Nat} (noFlush : .flushRuleset ∉ batch)
    (nodup : (batch.filterMap Declaration.chainKey?).Nodup) (h : .addChain chain ∈ batch) :
    onChain chain.table chain.name last batch none = some ⟨chain, []⟩ := by
  obtain ⟨before, after, rfl, earlier, later⟩ := named_once nodup h rfl
  have quietBefore : .flushRuleset ∉ before := fun h => noFlush (List.mem_append_left _ h)
  have quietAfter : .flushRuleset ∉ after := fun h =>
    noFlush (List.mem_append_right _ (List.mem_cons_of_mem _ h))
  have declared : ∀ last, Declaration.onChain chain.table chain.name last (.addChain chain) none =
      some ⟨chain, []⟩ := fun _ => if_pos ⟨rfl, rfl⟩
  rw [onChain_append, onChain_other quietBefore earlier]
  show onChain chain.table chain.name _ after
    (Declaration.onChain chain.table chain.name _ (.addChain chain) none) = _
  rw [declared, onChain_other quietAfter later]

end Fresh

end Ruleset

end Firewall
