import Firewall.Proofs.Elements
import Firewall.Proofs.Failures
import Firewall.Proofs.Placement
import Mathlib.Data.List.Nodup

namespace Firewall

/-- An entry is what its key finds if no other has that key. -/
theorem find?_key {α κ : Type} [DecidableEq κ] {key : α → κ} {as : List α} {a : α}
    (apart : (as.map key).Nodup) (ha : a ∈ as) : as.find? (fun b => key b = key a) = some a := by
  obtain ⟨front, back, rfl⟩ := List.append_of_mem ha
  rw [List.map_append, List.map_cons] at apart
  refine List.find?_eq_some_iff_append.mpr ⟨decide_eq_true rfl, front, back, rfl, fun b hb => ?_⟩
  have other : key b ≠ key a :=
    (List.nodup_append.mp apart).2.2 _ (List.mem_map_of_mem hb) _ List.mem_cons_self
  simpa using other

namespace InstalledTable

variable {t t' : InstalledTable} {name : String}

/-- The chains of a table have names of their own. -/
def Named (t : InstalledTable) : Prop := (t.chains.map (·.chain.name)).Nodup

theorem addChain_named (chain : Chain) (named : t.Named) : (t.addChain chain).Named := by
  unfold addChain
  split
  · rename_i chains changed
    have keys : chains.map (·.chain.name) = t.chains.map (·.chain.name) := by
      refine changeFirst_keys (fun a b _ made => ?_) changed
      cases made
      rfl
    exact (congrArg List.Nodup keys).mpr named
  · rename_i missing
    have absent : chain.name ∉ t.chains.map (·.chain.name) := by
      intro there
      obtain ⟨c, member, same⟩ := List.mem_map.mp there
      have other := List.find?_eq_none.mp (changeFirst_none missing) c member
      exact other (decide_eq_true same)
    show ((t.chains ++ [_]).map _).Nodup
    rw [List.map_append]
    exact (List.perm_append_singleton chain.name _).nodup_iff.mpr (List.nodup_cons.mpr ⟨absent, named⟩)

theorem changeRules_named {put : List RuleData → Except Rejection (List RuleData)}
    (h : t.changeRules name put = .ok t') (named : t.Named) : t'.Named := by
  unfold changeRules at h
  split at h
  · rename_i chains changed
    cases h
    have keys : chains.map (·.chain.name) = t.chains.map (·.chain.name) := by
      refine changeFirst_keys (fun a b here made => ?_) changed
      split at made
      · cases made
        exact here
      · cases made
    exact (congrArg List.Nodup keys).mpr named
  · cases h

end InstalledTable

/-- Whether a set is there behind a declaration, if it was or was not there before. -/
def Declaration.leaves (there : Bool) (t : Table) (name : String) : Declaration → Bool
  | .flushRuleset => false
  | .addSet set _ => decide (t = set.table ∧ name = set.name) || there
  | _ => there

theorem Declaration.onSet_leaves (d : Declaration) (t : Table) (name : String) (s : Option InstalledSet) :
    (d.onSet t name s).isSome = d.leaves s.isSome t name := by
  cases d with
  | flushRuleset | addTable | addChain | addRule | insertRule | deleteRule => rfl
  | addSet set elements =>
    rw [onSet, leaves]
    split
    · rename_i here
      simp [here]
    · rename_i other
      simp [other]
  | addElements | deleteElements =>
    rw [onSet]
    split
    · exact Option.isSome_map
    · rfl

namespace Ruleset

variable {r r' : Ruleset} {t : Table} {f : InstalledTable → Except Rejection InstalledTable}

/-- What holds of every table stays so if a change of one table keeps it. -/
theorem changeTable_forall {P : InstalledTable → Prop} (keeps : ∀ i j, f i = .ok j → P i → P j)
    (h : r.changeTable t f = .ok r') (all : ∀ i ∈ r.tables, P i) : ∀ i ∈ r'.tables, P i := by
  unfold changeTable at h
  split at h
  · rename_i tables changed
    cases h
    intro i hi
    rcases changeFirst_mem changed hi with old | ⟨before, there, made⟩
    · exact all i old
    · exact keeps before i made (all before there)
  · cases h

/-- A set stays where it is until the ruleset is flushed. -/
theorem Step.set?_isSome {d : Declaration} {name : String} (step : Step r d r') (quiet : d ≠ .flushRuleset)
    (there : (r.set? t name).isSome) : (r'.set? t name).isSome := by
  rw [step.set?, Declaration.onSet_leaves, there]
  cases d with
  | flushRuleset => exact absurd rfl quiet
  | addSet set elements => exact Bool.or_true _
  | addTable | addChain | addElements | deleteElements | addRule | insertRule | deleteRule => rfl

/-- What rules, chains, sets and elements are found by is kept apart, and nothing refers to what is not
there. -/
structure Consistent (r : Ruleset) : Prop where
  /-- Every rule has a handle, which has been counted. -/
  handled : ∀ rule ∈ r.placed, ∃ handle, rule.data.handle = some handle ∧ handle ≤ r.lastHandle
  /-- No two rules of the whole ruleset share a handle. -/
  handles : (r.placed.map (·.data.handle)).Nodup
  chains : ∀ i ∈ r.tables, i.Named
  /-- A set is in its own table, and is what its name finds there. -/
  sets : ∀ i ∈ r.tables, ∀ s ∈ i.sets, s.set.table = i.table ∧ r.set? i.table s.set.name = some s
  /-- No two elements of a set have the same bounds. -/
  elements : ∀ i ∈ r.tables, ∀ s ∈ i.sets, Element.Distinct s.elements
  /-- The sets that a rule looks up are in its table. -/
  lookups : ∀ rule ∈ r.placed, ∀ s ∈ rule.data.program.sets, (r.set? rule.table s.name).isSome

theorem ordered_empty : empty.Ordered := ⟨List.Pairwise.nil, fun _ h => absurd h List.not_mem_nil⟩

theorem consistent_empty : empty.Consistent where
  handled := fun _ h => absurd h List.not_mem_nil
  handles := List.nodup_nil
  chains := fun _ h => absurd h List.not_mem_nil
  sets := fun _ h => absurd h List.not_mem_nil
  elements := fun _ h => absurd h List.not_mem_nil
  lookups := fun _ h => absurd h List.not_mem_nil

theorem set?_mem {name : String} {s : InstalledSet} (found : r.set? t name = some s) :
    ∃ i ∈ r.tables, i.table = t ∧ s ∈ i.sets := by
  obtain ⟨i, there, found⟩ := Option.bind_eq_some_iff.mp found
  exact ⟨i, List.mem_of_find?_eq_some there, table?_table there, List.mem_of_find?_eq_some found⟩

theorem Ordered.apart (ordered : r.Ordered) : (r.tables.map (·.table)).Nodup := by
  refine ordered.tables.imp fun before same => ?_
  rw [same, Table.before_irrefl] at before
  cases before

/-- In order, every table and every set of it is what its name finds. -/
theorem Ordered.set?_of_mem (ordered : r.Ordered) {i : InstalledTable} (hi : i ∈ r.tables)
    {s : InstalledSet} (hs : s ∈ i.sets) : r.set? i.table s.set.name = some s := by
  have names : (i.sets.map (·.set.name)).Nodup := (ordered.sets i hi).imp String.ne_of_lt
  have table : r.table? i.table = some i := find?_key ordered.apart hi
  have set : i.set? s.set.name = some s := find?_key names hs
  rw [set?, table, Option.bind_some, set]

theorem Step.counted {d : Declaration} (step : Step r d r') : r.lastHandle ≤ r'.lastHandle := by
  rw [step.lastHandle]
  split
  · exact Nat.le_succ _
  · exact Nat.le_refl _

theorem Step.homed {d : Declaration} (step : Step r d r')
    (homed : ∀ t name s, r.set? t name = some s → s.set.table = t) :
    ∀ t name s, r'.set? t name = some s → s.set.table = t := by
  intro t name s found
  rw [step.set?] at found
  cases d with
  | flushRuleset => cases found
  | addTable | addChain | addRule | insertRule | deleteRule => exact homed t name s found
  | addSet set elements =>
    rw [Declaration.onSet] at found
    split at found
    · rename_i here
      cases found
      cases before : r.set? t name with
      | none => exact here.1.symm
      | some s => exact homed t name s before
    · exact homed t name s found
  | addElements set elements | deleteElements set elements =>
    rw [Declaration.onSet] at found
    split at found
    · obtain ⟨before, there, rfl⟩ := Option.map_eq_some_iff.mp found
      exact homed t name before there
    · exact homed t name s found

theorem placeRule_named {rule : Rule} {put : RuleData → List RuleData → Except Rejection (List RuleData)}
    (h : r.placeRule rule put = .ok r') (named : ∀ i ∈ r.tables, i.Named) : ∀ i ∈ r'.tables, i.Named := by
  unfold placeRule at h
  dsimp only at h
  split at h
  · rename_i r₁ placed
    cases h
    refine (changeTable_forall (fun i j made before => ?_) placed named : ∀ i ∈ r₁.tables, i.Named)
    split at made
    · cases made
    · exact InstalledTable.changeRules_named made before
  · cases h

theorem apply_named {d : Declaration} (h : r.apply d = .ok r') (named : ∀ i ∈ r.tables, i.Named) :
    ∀ i ∈ r'.tables, i.Named := by
  cases d with
  | flushRuleset =>
    cases h
    exact fun i hi => absurd hi List.not_mem_nil
  | addTable t =>
    cases h
    intro i hi
    rcases addTable_mem hi with rfl | old
    · exact List.nodup_nil
    · exact named i old
  | addChain chain =>
    refine changeTable_forall (fun i j made before => ?_) h named
    cases made
    exact InstalledTable.addChain_named chain before
  | addSet set elements =>
    refine changeTable_forall (fun i j made before => ?_) h named
    split at made
    · cases made
      exact before
    · cases made
  | addElements | deleteElements =>
    refine changeTable_forall (fun i j made before => ?_) h named
    rw [InstalledTable.Named, (InstalledTable.changeElements_ok made).2.1]
    exact before
  | addRule rule =>
    unfold apply at h
    exact placeRule_named h named
  | insertRule rule before =>
    cases before with
    | none | some =>
      unfold apply at h
      exact placeRule_named h named
  | deleteRule table chain handle =>
    exact changeTable_forall (fun i j => InstalledTable.changeRules_named) h named

/-- Every declaration keeps a ruleset consistent. -/
theorem apply_consistent {d : Declaration} (ordered : r.Ordered) (consistent : r.Consistent)
    (h : r.apply d = .ok r') : r'.Consistent := by
  have step := apply_step ordered h
  have shifts := apply_shifts h
  have counted := step.counted
  have homed : ∀ t name s, r.set? t name = some s → s.set.table = t := by
    intro t name s found
    obtain ⟨i, hi, rfl, hs⟩ := set?_mem found
    exact (consistent.sets i hi s hs).1
  have distinct : r.Distinct := by
    intro t name s found
    obtain ⟨i, hi, -, hs⟩ := set?_mem found
    exact consistent.elements i hi s hs
  constructor
  case handled =>
    intro rule there
    rcases shifts.mem there with old | new
    · obtain ⟨handle, given, le⟩ := consistent.handled rule old
      exact ⟨handle, given, Nat.le_trans le counted⟩
    · exact ⟨r'.lastHandle, new.handle, Nat.le_refl _⟩
  case handles =>
    refine shifts.nodup consistent.handles fun rule new there => ?_
    -- The next handle is above all that have been counted.
    obtain ⟨old, member, same⟩ := List.mem_map.mp there
    obtain ⟨handle, given, le⟩ := consistent.handled old member
    cases given.symm.trans (same.trans new.handle)
    exact Nat.not_le.mpr new.next le
  case chains => exact apply_named h consistent.chains
  case sets =>
    intro i hi s hs
    have found := step.ordered.set?_of_mem hi hs
    exact ⟨step.homed homed _ _ s found, found⟩
  case elements =>
    intro i hi s hs
    exact apply_distinct ordered distinct h _ _ s (step.ordered.set?_of_mem hi hs)
  case lookups =>
    intro rule there s hs
    by_cases flush : d = .flushRuleset
    · subst flush
      cases h
      exact absurd there List.not_mem_nil
    · rcases shifts.mem there with old | new
      · exact step.set?_isSome flush (consistent.lookups rule old s hs)
      · exact step.set?_isSome flush (new.sets s hs)

/-- A ruleset behind another one: handles have been counted on, and a rule that was not there has got one of
the later handles. -/
structure Precedes (r r' : Ruleset) : Prop where
  counted : r.lastHandle ≤ r'.lastHandle
  placed : ∀ rule ∈ r'.placed, rule ∈ r.placed ∨
    ∃ handle, rule.data.handle = some handle ∧ r.lastHandle < handle

theorem Precedes.refl (r : Ruleset) : r.Precedes r := ⟨Nat.le_refl _, fun _ => .inl⟩

/-- A rule whose handle was counted earlier was there earlier. -/
theorem Precedes.mem (before : r.Precedes r') {rule : Rule} (there : rule ∈ r'.placed) {handle : Nat}
    (given : rule.data.handle = some handle) (le : handle ≤ r.lastHandle) : rule ∈ r.placed := by
  rcases before.placed rule there with old | ⟨handle', given', lt⟩
  · exact old
  · cases given.symm.trans given'
    exact absurd le (Nat.not_le_of_lt lt)

/-- A declaration keeps a ruleset behind what it was behind. -/
theorem Precedes.apply {r₀ : Ruleset} {d : Declaration} (before : r₀.Precedes r) (ordered : r.Ordered)
    (h : r.apply d = .ok r') : r₀.Precedes r' := by
  have counted : r.lastHandle ≤ r'.lastHandle := (apply_step ordered h).counted
  refine ⟨Nat.le_trans before.counted counted, fun rule there => ?_⟩
  rcases (apply_shifts h).mem there with old | new
  · exact before.placed rule old
  · exact .inr ⟨r'.lastHandle, new.handle, Nat.lt_of_le_of_lt before.counted new.next⟩

end Ruleset

namespace Kernel

variable {k k' : Kernel}

/-- One kernel behind another: batches are committed, accepted or rejected, and failures are asked for. -/
inductive Leads (k : Kernel) : Kernel → Prop where
  | refl : Leads k k
  | commit {k' : Kernel} (before : Leads k k') (batch : Batch) : Leads k (k'.commit batch).2
  | failing {k' : Kernel} (before : Leads k k') (reason : String) : Leads k (k'.failing reason)

/-- A rejected batch leaves the ruleset alone. -/
theorem commit_ruleset (k : Kernel) (batch : Batch) : (k.commit batch).2.ruleset = k.ruleset ∨
    k.ruleset.applyAll 0 batch = .ok (k.commit batch).2.ruleset := by
  cases h : k.commit batch with
  | mk result k' =>
    cases result with
    | ok => exact .inr (commit_ok h)
    | error e =>
      left
      cases commit_error h with
      | same => rfl
      | used asked cause => rfl

/-- What every declaration keeps holds of every kernel that batches lead to. -/
theorem Leads.keeps {I : Ruleset → Prop}
    (step : ∀ {r d r'}, I r → r.apply d = .ok r' → I r') (leads : Leads k k') (h : I k.ruleset) :
    I k'.ruleset := by
  induction leads with
  | refl => exact h
  | commit before batch ih =>
    rcases commit_ruleset _ batch with same | applied
    · rw [same]
      exact ih
    · exact Ruleset.applyAll_keeps (fun _ => step) ih applied
  | failing before reason ih => exact ih

theorem Leads.ordered (leads : Leads k k') (ordered : k.ruleset.Ordered) : k'.ruleset.Ordered :=
  leads.keeps (fun ordered h => (Ruleset.apply_step ordered h).ordered) ordered

theorem Leads.precedes (leads : Leads k k') (ordered : k.ruleset.Ordered) :
    k.ruleset.Precedes k'.ruleset :=
  (leads.keeps (I := fun r => r.Ordered ∧ k.ruleset.Precedes r)
    (fun ⟨ordered, before⟩ h => ⟨(Ruleset.apply_step ordered h).ordered, before.apply ordered h⟩)
    ⟨ordered, .refl _⟩).2

theorem Leads.consistent (reached : Leads .empty k) : k.ruleset.Ordered ∧ k.ruleset.Consistent :=
  reached.keeps (I := fun r => r.Ordered ∧ r.Consistent)
    (fun ⟨ordered, consistent⟩ h =>
      ⟨(Ruleset.apply_step ordered h).ordered, Ruleset.apply_consistent ordered consistent h⟩)
    ⟨Ruleset.ordered_empty, Ruleset.consistent_empty⟩

/-- Whatever batches are committed, accepted or rejected, the ruleset is consistent, and a handle that a
rule has had is not given to another one: what has it later is that rule, which has been there all the
time. -/
theorem store_consistent {k₁ k₂ k₃ : Kernel} (reached : Leads .empty k₁) (later : Leads k₁ k₂)
    (last : Leads k₂ k₃) :
    k₁.ruleset.Consistent ∧
      ∀ a ∈ k₁.ruleset.placed, ∀ c ∈ k₃.ruleset.placed, c.data.handle = a.data.handle →
        c = a ∧ a ∈ k₂.ruleset.placed := by
  obtain ⟨ordered₁, consistent⟩ := reached.consistent
  refine ⟨consistent, fun a ha c hc same => ?_⟩
  obtain ⟨handle, given, le⟩ := consistent.handled a ha
  have from₁ := later.precedes ordered₁
  have from₂ := last.precedes (later.ordered ordered₁)
  have given' : c.data.handle = some handle := same.trans given
  have middle : c ∈ k₂.ruleset.placed := from₂.mem hc given' (Nat.le_trans le from₁.counted)
  have start : c ∈ k₁.ruleset.placed := from₁.mem middle given' le
  have one : c = a := List.inj_on_of_nodup_map consistent.handles start ha same
  exact ⟨one, one ▸ middle⟩

def lookupPolicy : Batch :=
  let filter : Table := ⟨.ipv4, "filter"⟩
  let ports := MatchSet.ofKeyType filter "open_ports" .inetService
  [.addTable filter, .addSet ports [.single (portBytes 22)], .addChain (.filter filter .input .drop),
    .addRule ⟨filter, "input", .unnamed [.lookup ⟨1⟩ ports.ref false, .verdict .accept]⟩,
    .insertRule ⟨filter, "input", .unnamed [.counter, .verdict .drop]⟩ none]

def installed : Kernel := (empty.commit lookupPolicy).2

/-- The kernel without one of the rules, and behind a batch that it has refused. -/
def pruned : Kernel :=
  let removal : Declaration := .deleteRule ⟨.ipv4, "filter"⟩ "input" 1
  ((installed.commit [removal]).2.commit (lookupPolicy ++ [removal])).2

/-- The kernel with the same policy installed anew. -/
def renewed : Kernel := (pruned.commit (.flushRuleset :: lookupPolicy)).2

theorem store_consistent_renewed :
    installed.ruleset.placed.map (·.data.handle) = [some 2, some 1] ∧
    pruned.ruleset.placed.map (·.data.handle) = [some 2] ∧
    renewed.ruleset.placed.map (·.data.handle) = [some 4, some 3] ∧
    installed.ruleset.Consistent ∧
      ∀ a ∈ installed.ruleset.placed, ∀ c ∈ renewed.ruleset.placed, c.data.handle = a.data.handle →
        c = a ∧ a ∈ pruned.ruleset.placed := by
  have reached : Leads .empty installed := .commit .refl _
  have later : Leads installed pruned := .commit (.commit .refl _) _
  have last : Leads pruned renewed := .commit .refl _
  exact ⟨by decide, by decide, by decide, store_consistent reached later last⟩

end Kernel
end Firewall
