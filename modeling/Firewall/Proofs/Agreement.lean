import Firewall.Proofs.Success

namespace Firewall

/-- Two actions have the same result on states that are alike, and leave states that are alike. -/
def Action.Agree {σ α : Type} (R : σ → σ → Prop) (a a' : Action σ α) : Prop :=
  ∀ s s', R s s' → (a s).1 = (a' s').1 ∧ R (a s).2 (a' s').2

namespace Action.Agree

variable {σ τ α β : Type} {R : σ → σ → Prop}

theorem pure (a : α) : Agree R (Pure.pure a) (Pure.pure a) := fun _ _ alike => ⟨rfl, alike⟩

theorem fail (e : Error) : Agree R (Action.fail e : Action σ α) (Action.fail e) :=
  fun _ _ alike => ⟨rfl, alike⟩

theorem ofExcept (r : Except Error α) : Agree R (Action.ofExcept r) (Action.ofExcept r) := by
  cases r with
  | ok a => exact .pure a
  | error e => exact .fail e

theorem change {f f' : σ → σ} (h : ∀ s s', R s s' → R (f s) (f' s')) :
    Agree R (Action.change f) (Action.change f') := fun s s' alike => ⟨rfl, h s s' alike⟩

theorem bind {x x' : Action σ α} {f f' : α → Action σ β} (hx : Agree R x x')
    (hf : ∀ a, Agree R (f a) (f' a)) : Agree R (x >>= f) (x' >>= f') := by
  intro s s' alike
  obtain ⟨same, left⟩ := hx s s' alike
  show (andThen x f s).1 = (andThen x' f' s').1 ∧ R (andThen x f s).2 (andThen x' f' s').2
  unfold andThen
  cases first : x s with
  | mk r s₁ =>
    cases second : x' s' with
    | mk r' s₁' =>
      rw [first, second] at same left
      cases same
      cases r with
      | ok a => exact hf a s₁ s₁' left
      | error e => exact ⟨rfl, left⟩

theorem ite {p : Prop} [Decidable p] {a a' b b' : Action σ α} (ha : Agree R a a') (hb : Agree R b b') :
    Agree R (if p then a else b) (if p then a' else b') := by
  split
  · exact ha
  · exact hb

theorem on {Q : τ → τ → Prop} {get : τ → σ} {set : τ → σ → τ} {a a' : Action σ α} (ha : Agree R a a')
    (inside : ∀ t t', Q t t' → R (get t) (get t'))
    (outside : ∀ t t' s s', Q t t' → R s s' → Q (set t s) (set t' s')) :
    Agree Q (a.on get set) (a'.on get set) := by
  intro t t' alike
  obtain ⟨same, left⟩ := ha (get t) (get t') (inside t t' alike)
  exact ⟨same, outside t t' _ _ alike left⟩

end Action.Agree

def Declaration.unnumbered : Declaration → Declaration
  | .addElements set es => .addElements { set with id := 0 } es
  | .deleteElements set es => .deleteElements { set with id := 0 } es
  | d => d

theorem Ruleset.apply_unnumbered (r : Ruleset) (d : Declaration) : r.apply d.unnumbered = r.apply d := by
  cases d <;> rfl

theorem Ruleset.applyAll_unnumbered (r : Ruleset) (index : Nat) (batch : Batch) :
    r.applyAll index (batch.map Declaration.unnumbered) = r.applyAll index batch := by
  induction batch generalizing r index with
  | nil => rfl
  | cons d ds ih =>
    rw [List.map_cons, applyAll, applyAll, apply_unnumbered]
    cases r.apply d with
    | ok r₁ => exact ih r₁ (index + 1)
    | error cause => rfl

/-- Kernels that hold the same and are asked for the same failure. -/
structure Kernel.Alike (k k' : Kernel) : Prop where
  ruleset : k.ruleset = k'.ruleset
  failNext : k.failNext = k'.failNext

theorem Kernel.commit_alike {k k' : Kernel} (alike : k.Alike k') {batch batch' : Batch}
    (same : batch.map Declaration.unnumbered = batch'.map Declaration.unnumbered) :
    (k.commit batch).1 = (k'.commit batch').1 ∧ (k.commit batch).2.Alike (k'.commit batch').2 := by
  have applied : k.ruleset.applyAll 0 batch = k'.ruleset.applyAll 0 batch' := by
    rw [← Ruleset.applyAll_unnumbered, same, Ruleset.applyAll_unnumbered, alike.ruleset]
  unfold commit
  rw [← alike.failNext, applied]
  cases k.failNext with
  | some reason => exact ⟨rfl, alike.ruleset, rfl⟩
  | none =>
    cases k'.ruleset.applyAll 0 batch' with
    | ok r => exact ⟨rfl, rfl, rfl⟩
    | error fault => exact ⟨rfl, alike.ruleset, alike.failNext⟩

/-- Transactions that differ at most in the numbers of the sets whose elements they change. -/
structure Transaction.Alike (t t' : Transaction) : Prop where
  batch : t.batch.map Declaration.unnumbered = t'.batch.map Declaration.unnumbered
  nextSetId : t.nextSetId = t'.nextSetId
  declared : t.declared = t'.declared
  reset : t.reset = t'.reset

theorem Transaction.Alike.push {t t' : Transaction} (alike : t.Alike t') {d d' : Declaration}
    (same : d.unnumbered = d'.unnumbered) : (t.push d).Alike (t'.push d') := by
  refine ⟨?_, alike.nextSetId, alike.declared, alike.reset⟩
  simp [Transaction.push, alike.batch, same]

namespace Pending

structure Alike (p p' : Pending Kernel) : Prop where
  transaction : p.transaction.Alike p'.transaction
  sink : p.sink.Alike p'.sink

variable {p p' : Pending Kernel}

theorem collect_agree {f f' : Transaction → Transaction}
    (h : ∀ t t', t.Alike t' → (f t).Alike (f' t')) : Action.Agree Alike (collect f) (collect f') :=
  .change fun _ _ alike => ⟨h _ _ alike.transaction, alike.sink⟩

theorem knows_alike (alike : p.Alike p') (table : Table) (name : String) :
    (knows table name p).1 = (knows table name p').1 := by
  obtain ⟨⟨-, -, declared, reset⟩, ⟨ruleset, -⟩⟩ := alike
  unfold knows
  rw [← declared, ← reset]
  split
  · rfl
  · split
    · rfl
    · show p.sink.hasSet table name = p'.sink.hasSet table name
      rw [Kernel.hasSet, Kernel.hasSet, ruleset]

theorem freshNumber_alike (alike : p.Alike p') (table : Table) (tries n : Nat) :
    (freshNumber table tries n p).1 = (freshNumber table tries n p').1 := by
  have looks : ∀ (p : Pending Kernel) (tries n : Nat), (freshNumber table (tries + 1) n p).1 =
      if (knows table (anonymousName n) p).1 then (freshNumber table tries (n + 1) p).1 else n := by
    intro p tries n
    have same := knows_kernel table (anonymousName n) p
    rw [freshNumber]
    cases known : knows table (anonymousName n) p with
    | mk found q =>
      rw [known] at same
      cases same
      cases found with
      | true => rfl
      | false => rfl
  induction tries generalizing n with
  | zero => rfl
  | succ tries ih => rw [looks, looks, knows_alike alike, ih]

theorem takeName_agree (table : Table) (id : Nat) : Action.Agree Alike (takeName table id) (takeName table id) := by
  intro p p' alike
  have same := freshNumber_alike alike table (setNumberBound - id) id
  have kept := freshNumber_kernel table (setNumberBound - id) id p
  have kept' := freshNumber_kernel table (setNumberBound - id) id p'
  unfold takeName
  cases here : freshNumber table (setNumberBound - id) id p with
  | mk n q =>
    cases there : freshNumber table (setNumberBound - id) id p' with
    | mk n' q' =>
      rw [here] at same kept
      rw [there] at same kept'
      cases same
      cases kept
      cases kept'
      have next : max q.transaction.nextSetId (n + 1) = max q'.transaction.nextSetId (n + 1) := by
        rw [alike.transaction.nextSetId]
      exact ⟨rfl, ⟨⟨alike.transaction.batch, next, alike.transaction.declared, alike.transaction.reset⟩,
        alike.sink⟩⟩

theorem addSet_agree (set : MatchSet) (elements : List Element) :
    Action.Agree Alike (addSet set elements) (addSet set elements) := by
  have takeId : Action.Agree Alike takeId takeId := by
    intro p p' alike
    have next := alike.transaction.nextSetId
    refine ⟨congrArg Except.ok next, ⟨?_, alike.sink⟩⟩
    exact ⟨alike.transaction.batch, congrArg (· + 1) next, alike.transaction.declared,
      alike.transaction.reset⟩
  have declare : ∀ (check : Except Error Unit) (set : MatchSet) (name : String),
      Action.Agree Alike (do
        Action.ofExcept check
        collect fun t =>
          { t.push (.addSet set elements) with declared := (set.table, name) :: t.declared }
        return set) (do
        Action.ofExcept check
        collect fun t =>
          { t.push (.addSet set elements) with declared := (set.table, name) :: t.declared }
        return set) := by
    intro check set name
    refine .bind (.ofExcept check) fun _ => .bind (collect_agree fun t t' alike => ?_) fun _ => .pure set
    obtain ⟨batch, nextSetId, declared, reset⟩ := alike.push (d := .addSet set elements) rfl
    exact ⟨batch, nextSetId, congrArg (List.cons (set.table, name)) declared, reset⟩
  have named : ∀ (name : String) {a : Action (Pending Kernel) MatchSet}, Action.Agree Alike a a →
      Action.Agree Alike (if name = "" then Action.fail .setUnnamed else a)
        (if name = "" then Action.fail .setUnnamed else a) :=
    fun name a ha => .ite (.fail _) ha
  refine .bind takeId fun id => .ite ?_ ?_
  · exact .bind (takeName_agree set.table id) fun name => named name (declare _ _ _)
  · exact .bind (.pure set.name) fun name => named name (declare _ _ _)

theorem requireSet_agree (table : Table) (name : String) :
    Action.Agree Alike (requireSet table name) (requireSet table name) := by
  have asks : Action.Agree Alike (Action.ofState (knows table name)) (Action.ofState (knows table name)) := by
    intro p p' alike
    have same := knows_alike alike table name
    have kept := knows_kernel table name p
    have kept' := knows_kernel table name p'
    refine ⟨congrArg Except.ok same, ?_⟩
    show Alike (knows table name p).2 (knows table name p').2
    rw [kept, kept']
    exact alike
  exact .bind asks fun known => .ite (.pure ()) (.fail _)

theorem requireSets_agree (table : Table) (sets : List SetRef) :
    Action.Agree Alike (requireSets table sets) (requireSets table sets) := by
  induction sets with
  | nil => exact .pure ()
  | cons s ss ih => exact .bind (requireSet_agree table s.name) fun _ => ih

theorem addRule_agree (chain : Chain) (data : RuleData) :
    Action.Agree Alike (addRule chain data) (addRule chain data) :=
  .bind (.ofExcept _) fun _ => .bind (requireSets_agree chain.table _) fun _ =>
    collect_agree fun _ _ alike => alike.push rfl

theorem flush_agree : Action.Agree Alike flush flush := by
  intro p p' alike
  have empty : p.transaction.batch.isEmpty = p'.transaction.batch.isEmpty := by
    have lengths := congrArg List.length alike.transaction.batch
    rw [List.length_map, List.length_map] at lengths
    rw [Bool.eq_iff_iff, List.isEmpty_iff_length_eq_zero, List.isEmpty_iff_length_eq_zero, lengths]
  obtain ⟨same, left⟩ := Kernel.commit_alike alike.sink alike.transaction.batch
  unfold flush
  rw [← empty]
  split
  · exact ⟨rfl, alike⟩
  · exact ⟨same, ⟨⟨rfl, alike.transaction.nextSetId, rfl, rfl⟩, left⟩⟩

end Pending

/-- Sets that differ at most in their numbers. -/
def MatchSet.Alike (set set' : MatchSet) : Prop := ∃ id, set' = { set with id }

namespace MatchSet.Alike

variable {set set' : MatchSet} (alike : set.Alike set')
include alike

theorem table : set.table = set'.table := by
  obtain ⟨id, rfl⟩ := alike
  rfl

theorem name : set.name = set'.name := by
  obtain ⟨id, rfl⟩ := alike
  rfl

theorem elementsOfSpecs (specs : List String) : set.elementsOfSpecs specs = set'.elementsOfSpecs specs := by
  obtain ⟨id, rfl⟩ := alike
  rfl

theorem checkElements (elements : List Element) :
    set.checkElements elements = set'.checkElements elements := by
  obtain ⟨id, rfl⟩ := alike
  induction elements with
  | nil => rfl
  | cons e es ih =>
    rw [MatchSet.checkElements, MatchSet.checkElements, ih]
    rfl

end MatchSet.Alike

namespace Pending

variable {set set' : MatchSet}

theorem changeElements_agree {d : MatchSet → List Element → Declaration} (alike : set.Alike set')
    (same : ∀ elements, (d set elements).unnumbered = (d set' elements).unnumbered)
    (elements : List Element) :
    Action.Agree Alike (changeElements d set elements) (changeElements d set' elements) := by
  unfold changeElements
  rw [alike.checkElements, alike.table, alike.name]
  exact .ite (.pure ()) (.bind (.ofExcept _) fun _ => .bind (requireSet_agree _ _) fun _ =>
    collect_agree fun _ _ alike => alike.push (same elements))

theorem addElements_agree (alike : set.Alike set') (elements : List Element) :
    Action.Agree Alike (addElements set elements) (addElements set' elements) := by
  refine changeElements_agree alike (fun elements => ?_) elements
  obtain ⟨id, rfl⟩ := alike
  rfl

theorem deleteElements_agree (alike : set.Alike set') (elements : List Element) :
    Action.Agree Alike (deleteElements set elements) (deleteElements set' elements) := by
  refine changeElements_agree alike (fun elements => ?_) elements
  obtain ⟨id, rfl⟩ := alike
  rfl

end Pending

namespace Layout

open Pending

theorem declareSpecs_agree (set : MatchSet) (specs : List String) :
    Action.Agree Alike (declareSpecs set specs) (declareSpecs set specs) :=
  .bind (.ofExcept _) fun _ => addSet_agree set _

theorem declareService_agree (wanted : Bool) (set : MatchSet) (specs : List String) :
    Action.Agree Alike (declareService wanted set specs) (declareService wanted set specs) :=
  .ite (declareSpecs_agree set specs) (.pure set)

theorem declareFilter_agree (l : Layout) (c : Config) (trusted : List Element) :
    Action.Agree Alike (l.declareFilter c trusted) (l.declareFilter c trusted) := by
  have tables : Action.Agree Alike
      (collect fun t => (((t.addTable l.filter).addChain l.input).addChain l.forward).addChain l.output)
      (collect fun t => (((t.addTable l.filter).addChain l.input).addChain l.forward).addChain l.output) :=
    collect_agree fun _ _ alike => (((alike.push rfl).push rfl).push rfl).push rfl
  exact .bind tables fun _ => .bind (addSet_agree _ _) fun _ => .bind (declareSpecs_agree _ _) fun _ =>
    .bind (declareService_agree _ _ _) fun _ => .bind (declareService_agree _ _ _) fun _ => .pure _

theorem flushRuleset_agree :
    Action.Agree Alike (collect Transaction.flushRuleset) (collect Transaction.flushRuleset) := by
  refine collect_agree fun t t' alike => ?_
  obtain ⟨batch, nextSetId, -, -⟩ := alike.push (d := .flushRuleset) rfl
  exact ⟨batch, nextSetId, rfl, rfl⟩

theorem declareAll_agree (l : Layout) (c : Config) :
    Action.Agree Alike (l.declareAll c) (l.declareAll c) := by
  have nat : Action.Agree Alike (collect fun t => (t.addTable l.nat).addChain l.postrouting)
      (collect fun t => (t.addTable l.nat).addChain l.postrouting) :=
    collect_agree fun _ _ alike => (alike.push rfl).push rfl
  exact .bind flushRuleset_agree fun _ => .bind (declareFilter_agree l c []) fun _ =>
    .bind (addSet_agree _ _) fun _ => .bind (addSet_agree _ _) fun _ => .bind (addSet_agree _ _) fun _ =>
      .bind (declareSpecs_agree _ _) fun _ => .bind nat fun _ => .pure _

theorem declareReduced_agree (l : Layout) (c : Config) (trusted : List Element) :
    Action.Agree Alike (l.declareReduced c trusted) (l.declareReduced c trusted) :=
  .bind flushRuleset_agree fun _ => declareFilter_agree l c trusted

end Layout

theorem Compiler.queue_agree (plan : List PlannedRule) :
    Action.Agree Pending.Alike (queue plan) (queue plan) := by
  induction plan with
  | nil => exact .pure ()
  | cons r plan ih => exact .bind (Pending.addRule_agree r.chain r.data) fun _ => ih

namespace Controller

/-- Controllers of one configuration in the current namespace, on kernels that are alike, whose layouts differ
at most in what nothing refers to while the policy is applied: the numbers of the address sets, and the sets of
ports. -/
structure Alike (c c' : Controller Kernel) : Prop where
  state : c' = { c with host := c'.host, layout := c'.layout, sink := c'.sink }
  current : c.config.networkNamespace = ""
  addresses : ∀ which : AddressSet, (which.set c.layout).Alike (which.set c'.layout)
  sink : c.sink.Alike c'.sink

variable {α β : Type} {c c' : Controller Kernel}

theorem transact_agree {a a' : Action (Pending Kernel) α} (agree : Action.Agree Pending.Alike a a') :
    Action.Agree Alike (transact a) (transact a') := by
  refine .on agree (fun c c' alike => ?_) fun c c' p p' alike left => ?_
  · exact ⟨⟨rfl, rfl, rfl, rfl⟩, alike.sink⟩
  · refine ⟨?_, alike.current, alike.addresses, left.sink⟩
    rw [alike.state]

theorem install_agree {declare : Action (Pending Kernel) Layout}
    {plan : Layout → Except Error (List PlannedRule)} (agree : Action.Agree Pending.Alike declare declare) :
    Action.Agree Pending.Alike (install declare plan) (install declare plan) :=
  .bind agree fun layout => .bind (.ofExcept _) fun rules => .bind (Compiler.queue_agree rules) fun _ =>
    .bind Pending.flush_agree fun _ => .pure layout

/-- A new layout is the same for both. -/
theorem settle_agree (layout : Layout) (applied : Bool) :
    Action.Agree Alike (Action.change fun c => { c with layout, applied })
      (Action.change fun c => { c with layout, applied }) := by
  refine .change fun c c' alike => ?_
  have same : ∀ which : AddressSet, (which.set layout).Alike (which.set layout) := fun which => ⟨_, rfl⟩
  refine ⟨?_, alike.current, same, alike.sink⟩
  rw [alike.state]

theorem inNamespace_agree {a a' : Action (Controller Kernel) α} (agree : Action.Agree Alike a a') :
    Action.Agree Alike (inNamespace a) (inNamespace a') := by
  intro c c' alike
  have current' : c'.config.networkNamespace = "" := by
    rw [alike.state]
    exact alike.current
  rw [inNamespace_current alike.current, inNamespace_current current']
  exact agree c c' alike

/-- Controllers that are alike, by what they differ in. -/
theorem Alike.fields (alike : c.Alike c') :
    ∃ host layout sink, c' = { c with host := host, layout := layout, sink := sink } :=
  ⟨_, _, _, alike.state⟩

theorem apply_agree : Action.Agree Alike apply apply := by
  intro c c' alike
  obtain ⟨host, layout, sink, rfl⟩ := alike.fields
  unfold apply
  dsimp only
  split
  · exact ⟨rfl, alike⟩
  · exact inNamespace_agree (.bind (transact_agree (install_agree (Layout.declareAll_agree _ _)))
      fun layout => settle_agree layout true) c _ alike

theorem elements_alike {k k' : Kernel} {set set' : MatchSet} (alike : k.Alike k') (sets : set.Alike set') :
    k.elements set = k'.elements set' := by
  rw [Kernel.elements, Kernel.elements, alike.ruleset, sets.table, sets.name]

theorem cleanup_agree : Action.Agree Alike cleanup cleanup := by
  intro c c' alike
  obtain ⟨host, layout, sink, rfl⟩ := alike.fields
  have kept : Action.Agree Alike (elementsOrNone c.layout.trusted) (elementsOrNone layout.trusted) := by
    intro d d' alike'
    have same : d.sink.elements c.layout.trusted = d'.sink.elements layout.trusted :=
      elements_alike alike'.sink (alike.addresses .trusted)
    rw [elementsOrNone_eq, elementsOrNone_eq, same]
    exact ⟨rfl, alike'⟩
  unfold cleanup
  dsimp only
  split
  · exact ⟨rfl, alike⟩
  · exact inNamespace_agree (.bind kept fun trusted =>
      .bind (transact_agree (install_agree (Layout.declareReduced_agree _ _ trusted)))
        fun layout => settle_agree layout false) c _ alike

theorem read_agree {set set' : MatchSet} (alike : set.Alike set') (specs : List String) :
    Action.Agree Alike (Action.ofExcept (set.elementsOfSpecs specs))
      (Action.ofExcept (set'.elementsOfSpecs specs)) := by
  rw [alike.elementsOfSpecs]
  exact .ofExcept _

theorem updateSet_agree (which : AddressSet) (remove add : List String) :
    Action.Agree Alike (updateSet which remove add) (updateSet which remove add) := by
  intro c c' alike
  have sets := alike.addresses which
  obtain ⟨host, layout, sink, rfl⟩ := alike.fields
  unfold updateSet
  dsimp only
  split
  · exact ⟨rfl, alike⟩
  · split
    · exact ⟨rfl, alike⟩
    · exact inNamespace_agree (.bind (read_agree sets remove) fun remove => .bind (read_agree sets add)
        fun add => transact_agree (.bind (Pending.deleteElements_agree sets remove) fun _ =>
          .bind (Pending.addElements_agree sets add) fun _ => Pending.flush_agree)) c _ alike

theorem ban_agree (specs : List String) (timeout : Option Duration) :
    Action.Agree Alike (ban specs timeout) (ban specs timeout) := by
  intro c c' alike
  have sets := alike.addresses .blacklist
  obtain ⟨host, layout, sink, rfl⟩ := alike.fields
  unfold ban
  dsimp only
  split
  · exact ⟨rfl, alike⟩
  · split
    · exact ⟨rfl, alike⟩
    · exact inNamespace_agree (.bind (read_agree sets specs) fun elements => transact_agree
        (.bind (Pending.addElements_agree sets _) fun _ => Pending.flush_agree)) c _ alike

theorem attach_agree : Action.Agree Alike attach attach := by
  have asks : ∀ (table : Table) (name : String), Action.Agree Alike
      (onSink (.ofState (Sink.hasSet table name))) (onSink (.ofState (Sink.hasSet table name))) := by
    intro table name c c' alike
    have same : c.sink.hasSet table name = c'.sink.hasSet table name := by
      rw [Kernel.hasSet, Kernel.hasSet, alike.sink.ruleset]
    exact ⟨congrArg Except.ok same, alike⟩
  have adopts : ∀ present : Bool, Action.Agree Alike (do
        if present then
          Action.change fun c : Controller Kernel => { c with layout := c.template, applied := true }
        return present) (do
        if present then
          Action.change fun c : Controller Kernel => { c with layout := c.template, applied := true }
        return present) := by
    intro present
    cases present with
    | false => exact .pure false
    | true =>
      refine .bind (.change fun c c' alike => ?_) fun _ => .pure true
      obtain ⟨host, layout, sink, rfl⟩ := alike.fields
      exact ⟨rfl, alike.current, fun which => ⟨_, rfl⟩, alike.sink⟩
  intro c c' alike
  obtain ⟨host, layout, sink, rfl⟩ := alike.fields
  unfold attach
  dsimp only
  split
  · exact ⟨rfl, alike⟩
  · refine inNamespace_agree (.bind (asks _ _) fun trusted => ?_) c _ alike
    cases trusted with
    | true => exact .bind (asks _ _) fun present => adopts present
    | false => exact adopts false

theorem members_eq (c : Controller Kernel) (which : AddressSet)
    (current : c.config.networkNamespace = "") :
    members which c = ((c.sink.elements (which.set c.layout)).map fun es =>
      es.map fun e => e.spec (which.set c.layout).keyType, c) := by
  have asked : onSink (Sink.elements (which.set c.layout)) c =
      (c.sink.elements (which.set c.layout), c) := rfl
  rw [members, inNamespace_current current]
  show Action.andThen (onSink (Sink.elements (which.set c.layout))) _ c = _
  unfold Action.andThen
  rw [asked]
  cases c.sink.elements (which.set c.layout) with
  | ok es => rfl
  | error e => rfl

theorem members_agree (which : AddressSet) : Action.Agree Alike (members which) (members which) := by
  intro c c' alike
  have current' : c'.config.networkNamespace = "" := by
    rw [alike.state]
    exact alike.current
  have key : (which.set c.layout).keyType = (which.set c'.layout).keyType := by
    obtain ⟨id, e⟩ := alike.addresses which
    rw [e]
  rw [members_eq c which alike.current, members_eq c' which current', key,
    elements_alike alike.sink (alike.addresses which)]
  exact ⟨rfl, alike⟩

end Controller

theorem Operation.run_agree (op : Operation) : Action.Agree Controller.Alike op.run op.run := by
  cases op with
  | apply => exact .bind Controller.apply_agree fun _ => .pure none
  | cleanup => exact .bind Controller.cleanup_agree fun _ => .pure none
  | update which remove add => exact .bind (Controller.updateSet_agree which remove add) fun _ => .pure none
  | ban specs timeout => exact .bind (Controller.ban_agree specs timeout) fun _ => .pure none
  | unban specs => exact .bind (Controller.updateSet_agree .blacklist specs []) fun _ => .pure none
  | attach => exact .bind Controller.attach_agree fun present => .pure (some present)

/-- What a controller can be asked: an operation, the elements of an address set, or to go on with a kernel
that refuses the next batch. -/
inductive Call where
  | operate (op : Operation)
  | members (which : AddressSet)
  | failNext (reason : String)
  deriving DecidableEq, Repr

inductive Answer where
  | done (present : Option Bool)
  | members (specs : List String)
  deriving DecidableEq, Repr

namespace Call

def run : Call → Action (Controller Kernel) Answer
  | .operate op => do
    let present ← op.run
    return .done present
  | .members which => do
    let specs ← Controller.members which
    return .members specs
  | .failNext reason => do
    Action.change fun c => { c with sink := c.sink.failing reason }
    return .done none

/-- The results of calls, and the controller behind them. -/
def runAll : List Call → Controller Kernel → List (Except Error Answer) × Controller Kernel
  | [], c => ([], c)
  | call :: calls, c =>
    let (result, c) := call.run c
    let (results, c) := runAll calls c
    (result :: results, c)

theorem run_agree (call : Call) : Action.Agree Controller.Alike call.run call.run := by
  cases call with
  | operate op => exact .bind op.run_agree fun present => .pure _
  | members which => exact .bind (Controller.members_agree which) fun specs => .pure _
  | failNext reason =>
    refine .bind (.change fun c c' alike => ?_) fun _ => .pure _
    obtain ⟨host, layout, sink, rfl⟩ := alike.fields
    exact ⟨rfl, alike.current, alike.addresses, alike.sink.ruleset, rfl⟩

/-- Controllers that are alike give the same answers, and stay alike. -/
theorem runAll_agree (calls : List Call) {c c' : Controller Kernel} (alike : c.Alike c') :
    (runAll calls c).1 = (runAll calls c').1 ∧ (runAll calls c).2.Alike (runAll calls c').2 := by
  induction calls generalizing c c' with
  | nil => exact ⟨rfl, alike⟩
  | cons call calls ih =>
    obtain ⟨same, left⟩ := call.run_agree c c' alike
    obtain ⟨later, behind⟩ := ih left
    exact ⟨congrArg₂ List.cons same later, behind⟩

end Call

end Firewall
