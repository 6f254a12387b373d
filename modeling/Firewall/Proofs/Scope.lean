import Firewall.Kernel
import Firewall.Proofs.Outline

namespace Firewall

/-- A declaration names only what the batch before it declares. -/
def Declaration.InScope (before : Batch) : Declaration → Prop
  | .addTable _ => True
  | .addChain chain => .addTable chain.table ∈ before
  | .addSet set _ => .addTable set.table ∈ before
  | .addRule rule =>
    (∃ chain : Chain, .addChain chain ∈ before ∧ chain.table = rule.table ∧ chain.name = rule.chain) ∧
    ∀ s ∈ rule.data.program.sets, ∃ (set : MatchSet) (elements : List Element),
      .addSet set elements ∈ before ∧ set.table = rule.table ∧ set.ref = s
  | _ => False

/-- Every declaration of a batch is in scope behind the ones before it. -/
def InScope (before : Batch) : Batch → Prop
  | [] => True
  | d :: ds => d.InScope before ∧ InScope (before ++ [d]) ds

section Batches

variable {before before' batch batch' : Batch} {d : Declaration}

theorem Declaration.InScope.mono (h : d.InScope before) (more : before ⊆ before') : d.InScope before' := by
  cases d with
  | addTable t => trivial
  | addChain chain => exact more h
  | addSet set elements => exact more h
  | addRule rule =>
    obtain ⟨⟨chain, declared, here⟩, sets⟩ := h
    refine ⟨⟨chain, more declared, here⟩, fun s hs => ?_⟩
    obtain ⟨set, elements, known, same⟩ := sets s hs
    exact ⟨set, elements, more known, same⟩
  | flushRuleset | addElements | deleteElements | insertRule | deleteRule => exact h.elim

theorem inScope_append : InScope before (batch ++ batch') ↔
    InScope before batch ∧ InScope (before ++ batch) batch' := by
  induction batch generalizing before with
  | nil => simp [InScope]
  | cons d ds ih => rw [List.cons_append, InScope, InScope, ih, and_assoc, List.append_assoc,
      List.singleton_append]

theorem inScope_all (h : ∀ d ∈ batch, d.InScope before) : InScope before batch := by
  induction batch generalizing before with
  | nil => trivial
  | cons d ds ih =>
    obtain ⟨first, rest⟩ := List.forall_mem_cons.mp h
    exact ⟨first, ih fun d hd => (rest d hd).mono (List.subset_append_left before _)⟩

theorem InScope.apart (h : InScope before (batch ++ d :: batch')) : d.InScope (before ++ batch) :=
  (inScope_append.mp h).2.1

end Batches

section Total

variable {α ε : Type} {p : α → Bool} {f : α → Except ε α} {as : List α} {a b : α}

theorem changeFirst_total (missing : ε) (found : as.find? p = some a) (changes : f a = .ok b) :
    ∃ bs, changeFirst p missing f as = .ok bs := by
  induction as with
  | nil => cases found
  | cons c as ih =>
    rw [changeFirst]
    cases hp : p c with
    | true =>
      rw [List.find?_cons_of_pos hp] at found
      cases found
      exact ⟨b :: as, by rw [if_pos rfl, changes]⟩
    | false =>
      rw [List.find?_cons_of_neg (by simp [hp])] at found
      obtain ⟨bs, later⟩ := ih found
      exact ⟨c :: bs, by rw [if_neg Bool.false_ne_true, later]⟩

end Total

namespace InstalledTable

variable {t : InstalledTable}

theorem addSet_total {set : MatchSet} {ss : List InstalledSet} (elements : List Element)
    (fresh : ss.find? (fun s => s.set.name = set.name) = none) :
    ∃ ss', addSet set elements ss = .ok ss' := by
  induction ss with
  | nil => exact ⟨_, rfl⟩
  | cons s ss ih =>
    have other : ¬ s.set.name = set.name := by
      simpa using List.find?_eq_none.mp fresh s List.mem_cons_self
    rw [List.find?_cons_of_neg (by simpa using other)] at fresh
    obtain ⟨ss', later⟩ := ih fresh
    rw [addSet, if_neg other]
    split
    · exact ⟨_, rfl⟩
    · exact ⟨s :: ss', by rw [later]⟩

theorem changeRules_total {name : String} (put : List RuleData → Except Rejection (List RuleData))
    {c : InstalledChain} {rules : List RuleData} (found : t.chain? name = some c)
    (placed : put c.rules = .ok rules) : ∃ t', t.changeRules name put = .ok t' := by
  have changed : (put c.rules).map (InstalledChain.mk c.chain) = .ok { c with rules } := by
    rw [placed]
    rfl
  obtain ⟨chains, all⟩ := changeFirst_total (Rejection.noChain name)
    (f := fun c => (put c.rules).map (InstalledChain.mk c.chain)) found changed
  refine ⟨{ t with chains }, ?_⟩
  rw [changeRules_eq, all]
  rfl

end InstalledTable

namespace Ruleset

variable {r r' : Ruleset} {before batch : Batch} {d : Declaration} {t : Table} {name : String}

theorem changeTable_total {f : InstalledTable → Except Rejection InstalledTable} {i j : InstalledTable}
    (found : r.table? t = some i) (changes : f i = .ok j) : ∃ r', r.changeTable t f = .ok r' := by
  obtain ⟨tables, all⟩ := changeFirst_total (Rejection.noTable t) found changes
  refine ⟨{ r with tables }, ?_⟩
  unfold changeTable
  rw [all]

/-- A ruleset behind a batch that started from nothing. -/
structure Knows (r : Ruleset) (before : Batch) : Prop where
  ordered : r.Ordered
  tables : ∀ t, .addTable t ∈ before → ∃ i, r.table? t = some i
  chains : ∀ chain : Chain, .addChain chain ∈ before → ∃ c, r.chain? chain.table chain.name = some c
  sets : ∀ (set : MatchSet) (elements : List Element), .addSet set elements ∈ before →
    ∃ s, r.set? set.table set.name = some s
  fresh : ∀ t name, (t, name) ∉ before.filterMap Declaration.setKey? → r.set? t name = none

theorem knows_nothing (last : Nat) : Knows ⟨[], last⟩ [] where
  ordered := ⟨List.Pairwise.nil, fun _ hi => absurd hi List.not_mem_nil⟩
  tables _ h := absurd h List.not_mem_nil
  chains _ h := absurd h List.not_mem_nil
  sets _ _ h := absurd h List.not_mem_nil
  fresh _ _ _ := rfl

/-- A declaration in scope is not refused. -/
theorem apply_total (knows : r.Knows before) (scope : d.InScope before)
    (once : ∀ key, d.setKey? = some key → key ∉ before.filterMap Declaration.setKey?) :
    ∃ r', r.apply d = .ok r' := by
  cases d with
  | addTable t => exact ⟨_, rfl⟩
  | addChain chain =>
    obtain ⟨_, found⟩ := knows.tables chain.table scope
    exact changeTable_total found rfl
  | addSet set elements =>
    obtain ⟨i, found⟩ := knows.tables set.table scope
    have unknown := knows.fresh set.table set.name (once _ rfl)
    rw [set?, found, Option.bind_some] at unknown
    obtain ⟨sets, added⟩ := InstalledTable.addSet_total elements unknown
    refine changeTable_total (j := { i with sets }) found ?_
    rw [added]
  | addRule rule =>
    obtain ⟨⟨chain, declared, table, named⟩, sets⟩ := scope
    obtain ⟨c, there⟩ := knows.chains chain declared
    rw [table, named] at there
    obtain ⟨i, found, inside⟩ := Option.bind_eq_some_iff.mp there
    have held : i.missingSet? rule.data.program.sets = none := by
      refine List.find?_eq_none.mpr fun s hs => ?_
      obtain ⟨set, elements, known, own, rfl⟩ := sets s hs
      obtain ⟨installed, at'⟩ := knows.sets set elements known
      rw [own, set?, found, Option.bind_some] at at'
      simp [MatchSet.ref, at']
    obtain ⟨j, placed⟩ := InstalledTable.changeRules_total
      (fun rules => .ok (rules ++ [rule.data.withHandle (r.lastHandle + 1)])) inside rfl
    obtain ⟨r₁, changed⟩ := changeTable_total (f := fun t => (t.missingSet? rule.data.program.sets).elim
      (t.changeRules rule.chain fun rules => .ok (rules ++ [rule.data.withHandle (r.lastHandle + 1)]))
      fun set => .error (.noSet set.name)) found (by rw [held]; exact placed)
    refine ⟨{ r₁ with lastHandle := r.lastHandle + 1 }, ?_⟩
    rw [apply, placeRule_eq, changed]
    rfl
  | flushRuleset | addElements | deleteElements | insertRule | deleteRule => exact scope.elim

section Kept

variable (scope : d.InScope before)
include scope

theorem onSet_known (s : InstalledSet) : ∃ s', d.onSet t name (some s) = some s' := by
  cases d with
  | addSet set elements =>
    rw [Declaration.onSet]
    split
    · exact ⟨_, rfl⟩
    · exact ⟨s, rfl⟩
  | addTable | addChain | addRule => exact ⟨s, rfl⟩
  | flushRuleset | addElements | deleteElements | insertRule | deleteRule => exact scope.elim

theorem onChain_known (last : Nat) (c : InstalledChain) :
    ∃ c', d.onChain t name last (some c) = some c' := by
  cases d with
  | addChain chain =>
    rw [Declaration.onChain]
    split
    · exact ⟨_, rfl⟩
    · exact ⟨c, rfl⟩
  | addRule rule =>
    rw [Declaration.onChain]
    split
    · exact ⟨_, rfl⟩
    · exact ⟨c, rfl⟩
  | addTable | addSet => exact ⟨c, rfl⟩
  | flushRuleset | addElements | deleteElements | insertRule | deleteRule => exact scope.elim

end Kept

theorem changeTable_known {f : InstalledTable → Except Rejection InstalledTable} {t' : Table}
    (keeps : ∀ i j, f i = .ok j → j.table = i.table) (h : r.changeTable t f = .ok r')
    (known : ∃ i, r.table? t' = some i) : ∃ i, r'.table? t' = some i := by
  obtain ⟨-, _, j, -, -, view⟩ := changeTable_ok keeps h
  rw [view]
  split
  · exact ⟨j, rfl⟩
  · exact known

theorem table_known (ordered : r.Ordered) (scope : d.InScope before) (h : r.apply d = .ok r')
    (known : (∃ i, r.table? t = some i) ∨ d = .addTable t) : ∃ i, r'.table? t = some i := by
  cases d with
  | addTable t' =>
    cases h
    have view : ({ r with tables := addTable t' r.tables } : Ruleset).table? t = _ :=
      addTable_find? ordered.tables t
    rw [view]
    split
    · exact ⟨_, rfl⟩
    · rename_i other
      refine known.resolve_right ?_
      rintro e
      cases e
      exact other rfl
  | addChain chain =>
    refine changeTable_known (fun i j e => ?_) h (known.resolve_right fun e => by cases e)
    cases e
    exact i.addChain_table chain
  | addSet set elements =>
    refine changeTable_known (fun i j e => ?_) h (known.resolve_right fun e => by cases e)
    split at e
    · cases e
      rfl
    · cases e
  | addRule rule =>
    rw [apply, placeRule_eq] at h
    cases placed : r.changeTable rule.table fun t => (t.missingSet? rule.data.program.sets).elim
        (t.changeRules rule.chain fun rules => .ok (rules ++ [rule.data.withHandle (r.lastHandle + 1)]))
        fun set => .error (.noSet set.name) with
    | error cause =>
      rw [placed] at h
      cases h
    | ok r₁ =>
      rw [placed] at h
      cases h
      have kept : ∃ i, r₁.table? t = some i := by
        refine changeTable_known (fun i j e => ?_) placed (known.resolve_right fun e => by cases e)
        cases missing : i.missingSet? rule.data.program.sets with
        | some set =>
          rw [missing] at e
          cases e
        | none =>
          rw [missing, Option.elim_none] at e
          exact (InstalledTable.changeRules_ok e).1
      exact kept
  | flushRuleset | addElements | deleteElements | insertRule | deleteRule => exact scope.elim

/-- What is known stays known behind a declaration in scope, and so is what it declares. -/
theorem Knows.step (knows : r.Knows before) (scope : d.InScope before) (h : r.apply d = .ok r') :
    r'.Knows (before ++ [d]) := by
  have step := apply_step knows.ordered h
  refine ⟨step.ordered, ?_, ?_, ?_, ?_⟩
  · intro t declared
    refine table_known knows.ordered scope h ?_
    rcases List.mem_append.mp declared with old | new
    · exact .inl (knows.tables t old)
    · exact .inr (List.mem_singleton.mp new).symm
  · intro chain declared
    rw [step.chain?]
    rcases List.mem_append.mp declared with old | new
    · obtain ⟨c, there⟩ := knows.chains chain old
      rw [there]
      exact onChain_known scope _ c
    · cases List.mem_singleton.mp new
      exact ⟨_, if_pos ⟨rfl, rfl⟩⟩
  · intro set elements declared
    rw [step.set?]
    rcases List.mem_append.mp declared with old | new
    · obtain ⟨s, there⟩ := knows.sets set elements old
      rw [there]
      exact onSet_known scope s
    · cases List.mem_singleton.mp new
      exact ⟨_, if_pos ⟨rfl, rfl⟩⟩
  · intro t name unnamed
    rw [List.filterMap_append] at unnamed
    have unknown : r.set? t name = none :=
      knows.fresh t name fun known => unnamed (List.mem_append_left _ known)
    have other : d.setKey? ≠ some (t, name) := by
      intro named
      exact unnamed (List.mem_append_right _ (List.mem_filterMap.mpr ⟨d, List.mem_cons_self, named⟩))
    have quiet : d ≠ .flushRuleset := by
      rintro rfl
      exact scope
    rw [step.set?, Declaration.onSet_unnamed quiet other, unknown]

/-- A batch in scope that names each set once is not refused. -/
theorem applyAll_total (knows : r.Knows before) (scope : InScope before batch)
    (once : ((before ++ batch).filterMap Declaration.setKey?).Nodup) (index : Nat) :
    ∃ r', r.applyAll index batch = .ok r' := by
  induction batch generalizing r before index with
  | nil => exact ⟨r, rfl⟩
  | cons d ds ih =>
    obtain ⟨here, rest⟩ := scope
    -- `once` is about the whole batch, so a set is still new when its turn comes.
    have first : ∀ key, d.setKey? = some key → key ∉ before.filterMap Declaration.setKey? := by
      intro key named known
      rw [List.filterMap_append, List.filterMap_cons_some named] at once
      exact (List.nodup_append.mp once).2.2 key known key List.mem_cons_self rfl
    obtain ⟨r₁, applied⟩ := apply_total knows here first
    obtain ⟨r', later⟩ := ih (knows.step here applied) rest (by simpa using once) (index + 1)
    exact ⟨r', by rw [applyAll, applied]; exact later⟩

end Ruleset

/-- A kernel that is not asked to fail takes a batch in scope behind a flush, whatever it holds. -/
theorem Kernel.commit_total {k : Kernel} {batch : Batch} (sound : k.failNext = none)
    (scope : InScope [] batch) (once : (batch.filterMap Declaration.setKey?).Nodup) :
    ∃ k', k.commit (.flushRuleset :: batch) = (.ok (), k') ∧ k'.lastBatch = .flushRuleset :: batch := by
  obtain ⟨r, applied⟩ := Ruleset.applyAll_total (Ruleset.knows_nothing k.ruleset.lastHandle) scope once 1
  have all : k.ruleset.applyAll 0 (.flushRuleset :: batch) = .ok r := applied
  refine ⟨⟨r, k.commits + 1, none, .flushRuleset :: batch⟩, ?_, rfl⟩
  rw [commit, sound]
  dsimp only
  rw [all]

end Firewall
