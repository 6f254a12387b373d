import Firewall.Proofs.Assembly
import Firewall.Proofs.Reached
import Firewall.Proofs.Scope
import Firewall.Proofs.SpecRoundTrip

namespace Firewall

section Spelled

variable {set : MatchSet} {e : Element} {a b : List UInt8}

theorem MatchSet.checkElement_ok : set.checkElement e = .ok () ↔
    ¬ (e.key.length ≠ set.keyType.length ∨ e.keyEnd.any fun last => last.length ≠ set.keyType.length) ∧
      ¬ (e.keyEnd.isSome ∧ !set.flags.interval) ∧ ¬ (e.timeout.isSome ∧ !set.flags.timeout) := by
  unfold checkElement
  dsimp only
  split
  · simp_all
  · split
    · simp_all
    · split
      · simp_all
      · simp_all

theorem MatchSet.single_checked (h : a.length = set.keyType.length) :
    set.checkElement (.single a) = .ok () := by
  simp [checkElement, Element.single, h]

theorem MatchSet.range_checked (ha : a.length = set.keyType.length) (hb : b.length = set.keyType.length)
    (h : a ≠ b → set.flags.interval = true) : set.checkElement (.range a b) = .ok () := by
  unfold Element.range
  split
  · exact single_checked ha
  · rename_i apart
    simp [checkElement, ha, hb, h apart]

/-- What specifications spell for a set passes its check. -/
theorem MatchSet.specs_checked {specs : List String} {es : List Element}
    (h : set.elementsOfSpecs specs = .ok es) : set.checkElements es = .ok () := by
  refine checkElements_ok.mpr fun e he => ?_
  obtain ⟨first, last, rfl, hf, hl, single⟩ := (Spec.elements_spells h e he).bounds
  exact range_checked hf hl (Spec.interval_of_ne single)

end Spelled

/-- An action that succeeds in every state. -/
def Action.Sure {σ α : Type} (a : Action σ α) : Prop := ∀ s, ∃ b s', a s = (.ok b, s')

namespace Action.Sure

variable {σ α β : Type} {x : Action σ α} {f : α → Action σ β}

theorem pure (a : α) : Sure (Pure.pure a : Action σ α) := fun s => ⟨a, s, rfl⟩

theorem ofExcept {r : Except Error α} {a : α} (h : r = .ok a) : Sure (Action.ofExcept r : Action σ α) := by
  intro s
  rw [h]
  exact ⟨a, s, rfl⟩

theorem bind (hx : Sure x) (hf : ∀ a, Sure (f a)) : Sure (x >>= f) := by
  intro s
  obtain ⟨a, s₁, first⟩ := hx s
  obtain ⟨b, s₂, second⟩ := hf a s₁
  refine ⟨b, s₂, ?_⟩
  show andThen x f s = _
  rw [andThen, first]
  exact second

end Action.Sure

theorem Action.bind_eq {σ α β : Type} {x : Action σ α} {f : α → Action σ β} {s s' : σ} {a : α}
    (h : x s = (.ok a, s')) : (x >>= f) s = f a s' := by
  show andThen x f s = _
  rw [andThen, h]

namespace Pending

variable {σ : Type} [Sink σ] {set : MatchSet} {elements : List Element}

omit [Sink σ] in
theorem collect_sure (f : Transaction → Transaction) : (collect f : Action (Pending σ) Unit).Sure :=
  fun _ => ⟨(), _, rfl⟩

theorem takeName_some (table : Table) (id : Nat) (p : Pending σ) :
    ∃ name p', takeName table id p = (.ok name, p') ∧ name ≠ "" := by
  unfold takeName
  cases freshNumber table (setNumberBound - id) id p with
  | mk n p' => exact ⟨_, _, rfl, anonymousName_ne n⟩

theorem addSet_sure (named : set.name ≠ "" ∨ set.flags.anonymous = true)
    (checked : set.checkElements elements = .ok ()) :
    (addSet set elements : Action (Pending σ) MatchSet).Sure := by
  -- The check does not depend on the number of the set, and on its name only for what it reports.
  have passes : ∀ (id : Nat) (name : String),
      MatchSet.checkElements { set with id, name } elements = .ok () := by
    intro id name
    refine MatchSet.checkElements_ok.mpr fun e he => ?_
    have asked := MatchSet.checkElement_ok.mp (MatchSet.checkElements_ok.mp checked e he)
    exact MatchSet.checkElement_ok.mpr asked
  have declare : ∀ (id : Nat) {name : String}, name ≠ "" → (if name = "" then Action.fail .setUnnamed
      else do
        Action.ofExcept (MatchSet.checkElements { set with id, name } elements)
        collect fun t => { t.push (.addSet { set with id, name } elements) with
          declared := (set.table, name) :: t.declared }
        return { set with id, name } : Action (Pending σ) MatchSet).Sure := by
    intro id name some
    rw [if_neg some]
    exact .bind (.ofExcept (passes id name)) fun _ => .bind (collect_sure _) fun _ => .pure _
  have takeId : ∀ p : Pending σ, takeId p = (.ok p.transaction.nextSetId, _) := fun _ => rfl
  intro p
  unfold addSet
  rw [Action.bind_eq (takeId p)]
  dsimp only
  by_cases anonymous : set.flags.anonymous = true ∧ set.name = ""
  · rw [if_pos anonymous]
    obtain ⟨name, p', taken, some⟩ := takeName_some set.table p.transaction.nextSetId
      ⟨{ p.transaction with nextSetId := p.transaction.nextSetId + 1 }, p.sink⟩
    rw [Action.bind_eq taken]
    exact declare _ some p'
  · rw [if_neg anonymous]
    have own : set.name ≠ "" := by
      intro none
      exact anonymous ⟨named.resolve_left fun some => some none, none⟩
    exact declare _ own _

theorem requireSets_known {table : Table} {sets : List SetRef} {p : Pending σ}
    (known : ∀ s ∈ sets, (table, s.name) ∈ p.transaction.declared) :
    requireSets table sets p = (.ok (), p) := by
  induction sets with
  | nil => rfl
  | cons s sets ih =>
    obtain ⟨first, rest⟩ := List.forall_mem_cons.mp known
    have here : knows table s.name p = (true, p) := by
      rw [knows, if_pos (List.contains_iff_mem.mpr first)]
    have asked : requireSet table s.name p = (.ok (), p) := by
      have known : Action.ofState (knows table s.name) p = (.ok true, p) := by
        rw [Action.ofState, here]
      rw [requireSet, Action.bind_eq known]
      rfl
    rw [requireSets, Action.bind_eq asked, ih rest]

theorem addRule_known {chain : Chain} {data : RuleData} {p : Pending σ}
    (valid : data.program.validate chain.table.family = .ok ())
    (known : ∀ s ∈ data.program.sets, (chain.table, s.name) ∈ p.transaction.declared) :
    addRule chain data p =
      (.ok (), { p with transaction := p.transaction.push (.addRule ⟨chain.table, chain.name, data⟩) }) := by
  have checked : Action.ofExcept (data.program.validate chain.table.family) p = (.ok (), p) := by
    rw [valid]
    rfl
  rw [addRule, placeRule, Action.bind_eq checked, Action.bind_eq (requireSets_known known)]
  rfl

end Pending

theorem Compiler.queue_known {σ : Type} [Sink σ] {plan : List PlannedRule} {p : Pending σ}
    (valid : ∀ r ∈ plan, r.data.program.validate r.chain.table.family = .ok ())
    (known : ∀ r ∈ plan, ∀ s ∈ r.data.program.sets,
      (r.chain.table, s.name) ∈ p.transaction.declared) :
    ∃ p', queue plan p = (.ok (), p') := by
  induction plan generalizing p with
  | nil => exact ⟨p, rfl⟩
  | cons r plan ih =>
    obtain ⟨first, others⟩ := List.forall_mem_cons.mp valid
    obtain ⟨here, later⟩ := List.forall_mem_cons.mp known
    obtain ⟨p', rest⟩ := ih (p := ⟨p.transaction.push r.declaration, p.sink⟩) others later
    exact ⟨p', by rw [queue, Action.bind_eq (Pending.addRule_known first here)]; exact rest⟩

namespace Layout

variable {σ : Type} [Sink σ] {config : Config} {ports : PortElements}

theorem declareSpecs_sure {set : MatchSet} {specs : List String} {es : List Element}
    (named : set.name ≠ "" ∨ set.flags.anonymous = true)
    (read : set.elementsOfSpecs specs = .ok es) :
    (declareSpecs set specs : Action (Pending σ) MatchSet).Sure := by
  intro p
  have checked := MatchSet.specs_checked read
  obtain ⟨set', p', declared⟩ := Pending.addSet_sure named checked p
  refine ⟨set', p', ?_⟩
  have elements : Action.ofExcept (set.elementsOfSpecs specs) p = (.ok es, p) := by
    rw [read]
    rfl
  rw [declareSpecs, Action.bind_eq elements]
  exact declared

theorem declareService_sure {wanted : Bool} {set : MatchSet} {specs : List String} {es : List Element}
    (anonymous : set.flags.anonymous = true)
    (read : wanted = true → set.elementsOfSpecs specs = .ok es) :
    (declareService wanted set specs : Action (Pending σ) MatchSet).Sure := by
  cases wanted with
  | true => exact declareSpecs_sure (.inr anonymous) (read rfl)
  | false => exact .pure set

variable (spells : Spells config ports)
include spells

theorem declareFilter_sure {trusted : List Element}
    (checked : (ofConfig config).trusted.checkElements trusted = .ok ()) :
    ((ofConfig config).declareFilter config trusted : Action (Pending σ) Layout).Sure := by
  have named : (ofConfig config).trusted.name ≠ "" := by simp
  have namedPorts : (ofConfig config).trustedPorts.name ≠ "" := by simp
  exact .bind (Pending.collect_sure _) fun _ => .bind (Pending.addSet_sure (.inl named) checked) fun _ =>
    .bind (declareSpecs_sure (.inl namedPorts) spells.trusted) fun _ =>
      .bind (declareService_sure rfl spells.http) fun _ =>
        .bind (declareService_sure rfl spells.smtp) fun _ => .pure _

theorem declareAll_sure : ((ofConfig config).declareAll config : Action (Pending σ) Layout).Sure := by
  have addresses : ∀ {set : MatchSet}, set.name ≠ "" →
      (Pending.addSet set [] : Action (Pending σ) MatchSet).Sure :=
    fun named => Pending.addSet_sure (.inl named) rfl
  have namedPorts : (ofConfig config).managerPorts.name ≠ "" := by simp
  exact .bind (Pending.collect_sure _) fun _ => .bind (declareFilter_sure spells rfl) fun _ =>
    .bind (addresses (by simp)) fun _ => .bind (addresses (by simp)) fun _ =>
      .bind (addresses (by simp)) fun _ =>
        .bind (declareSpecs_sure (.inl namedPorts) spells.manager) fun _ =>
          .bind (Pending.collect_sure _) fun _ => .pure _

theorem declareReduced_sure {trusted : List Element}
    (checked : (ofConfig config).trusted.checkElements trusted = .ok ()) :
    ((ofConfig config).declareReduced config trusted : Action (Pending σ) Layout).Sure :=
  .bind (Pending.collect_sure _) fun _ => declareFilter_sure spells checked

end Layout

def Declaration.rule? : Declaration → Option Rule
  | .addRule rule => some rule
  | .insertRule rule _ => some rule
  | _ => none

/-- The rules of a batch are in order for their tables, look up only sets of these tables that the batch
has declared before, and can be written in a document. -/
structure Admissible (batch : Batch) : Prop where
  valid : ∀ d ∈ batch, ∀ rule, d.rule? = some rule →
    rule.data.program.validate rule.table.family = .ok ()
  finds : ∀ before d after rule, batch = before ++ d :: after → d.rule? = some rule →
    Finds before rule.table rule.data.program
  written : ∃ document, Nft.document batch = .ok document

section Batches

variable {declared : Batch} {plan : List PlannedRule}

theorem commands_total {sets : List Nft.AnonymousSet} {batch : Batch}
    (h : ∀ d ∈ batch, ∀ rule, d.rule? = some rule →
      ∃ js, Nft.renderProgram rule.table sets rule.data.program = .ok js) :
    ∃ js, Nft.commands sets batch = .ok js := by
  induction batch with
  | nil => exact ⟨[], rfl⟩
  | cons d ds ih =>
    obtain ⟨first, rest⟩ := List.forall_mem_cons.mp h
    obtain ⟨js, later⟩ := ih rest
    have body : ∀ rule, d.rule? = some rule → ∀ more, ∃ j, Nft.ruleBody sets rule more = .ok j := by
      intro rule placed more
      obtain ⟨exprs, rendered⟩ := first rule placed
      rw [Nft.ruleBody, rendered]
      exact ⟨_, rfl⟩
    have here : ∃ j, Nft.command sets d = .ok j := by
      cases d with
      | addRule rule =>
        obtain ⟨j, written⟩ := body rule rfl []
        exact ⟨_, by rw [Nft.command, written]⟩
      | insertRule rule before =>
        cases before with
        | none =>
          obtain ⟨j, written⟩ := body rule rfl []
          simp only [Nft.command, written]
          exact ⟨_, rfl⟩
        | some handle =>
          obtain ⟨j, written⟩ := body rule rfl [("handle", .nat handle)]
          simp only [Nft.command, written]
          exact ⟨_, rfl⟩
      | addSet set elements =>
        rw [Nft.command]
        split
        · exact ⟨_, rfl⟩
        · exact ⟨_, rfl⟩
      | flushRuleset | addTable | addChain | addElements | deleteElements | deleteRule => exact ⟨_, rfl⟩
    obtain ⟨j, written⟩ := here
    exact ⟨j.toList ++ js, by rw [Nft.commands, written, later]⟩

theorem planned_inScope (scope : InScope [] declared)
    (placed : ∀ r ∈ plan, Compiler.Placed declared r) :
    InScope [] (declared ++ plan.map PlannedRule.declaration) := by
  refine inScope_append.mpr ⟨scope, inScope_all fun d hd => ?_⟩
  obtain ⟨r, hr, rfl⟩ := List.mem_map.mp hd
  have here := placed r hr
  exact ⟨⟨r.chain, here.chain, rfl, rfl⟩, here.finds⟩

theorem planned_setKeys (once : (declared.filterMap Declaration.setKey?).Nodup) :
    ((declared ++ plan.map PlannedRule.declaration).filterMap Declaration.setKey?).Nodup := by
  have rules : (plan.map PlannedRule.declaration).filterMap Declaration.setKey? = [] := by
    rw [List.filterMap_eq_nil_iff]
    intro d hd
    obtain ⟨r, -, rfl⟩ := List.mem_map.mp hd
    rfl
  rw [List.filterMap_append, rules, List.append_nil]
  exact once

/-- A batch that declares chains and sets and then places rules from the builders is admissible. -/
theorem planned_admissible (bare : ∀ d ∈ declared, d.rule? = none) (scope : InScope [] declared)
    (placed : ∀ r ∈ plan, Compiler.Placed declared r) :
    Admissible (.flushRuleset :: (declared ++ plan.map PlannedRule.declaration)) := by
  have planned : ∀ d ∈ Declaration.flushRuleset :: (declared ++ plan.map PlannedRule.declaration),
      ∀ rule, d.rule? = some rule → ∃ r ∈ plan, rule = ⟨r.chain.table, r.chain.name, r.data⟩ := by
    intro d hd rule places
    rcases List.mem_cons.mp hd with rfl | later
    · cases places
    · rcases List.mem_append.mp later with early | late
      · rw [bare d early] at places
        cases places
      · obtain ⟨r, hr, rfl⟩ := List.mem_map.mp late
        cases places
        exact ⟨r, hr, rfl⟩
  constructor
  · intro d hd rule places
    obtain ⟨r, hr, rfl⟩ := planned d hd rule places
    obtain ⟨parts, closing, built, -⟩ := (placed r hr).built
    exact (Nft.ruleProgram_ends built).validate
  · intro before d after rule split places
    cases before with
    | nil =>
      cases split
      cases places
    | cons first before =>
      obtain ⟨rfl, same⟩ := List.cons_eq_cons.mp split
      have all := planned_inScope scope placed
      rw [same] at all
      have here := all.apart
      cases d with
      | addRule r =>
        cases places
        intro s hs
        obtain ⟨set, elements, known, own⟩ := here.2 s hs
        exact ⟨set, elements, List.mem_cons_of_mem _ known, own⟩
      | insertRule => exact here.elim
      | flushRuleset | addTable | addChain | addSet | addElements | deleteElements | deleteRule =>
        cases places
  · have rendered : ∃ js, Nft.commands (Nft.anonymousSets (.flushRuleset ::
        (declared ++ plan.map PlannedRule.declaration)))
        (.flushRuleset :: (declared ++ plan.map PlannedRule.declaration)) = .ok js := by
      refine commands_total fun d hd rule places => ?_
      obtain ⟨r, hr, rfl⟩ := planned d hd rule places
      obtain ⟨parts, closing, built, single⟩ := (placed r hr).built
      exact Nft.renderOps_plain _ built single 0 fun _ => none
    obtain ⟨js, written⟩ := rendered
    rw [Nft.document, written]
    exact ⟨_, rfl⟩

end Batches

namespace Layout

section Policy

variable (c : Controller Kernel) (trusted : List Element) (ports : PortElements)

theorem filterDeclarations_serves : (c.compiler (numberedFilter c.config)).Serves
    ((numberedFilter c.config).filterDeclarations c.config trusted ports) := by
  refine ⟨⟨?_, rfl⟩, ⟨?_, rfl⟩, ⟨rfl, ?_, trusted, ?_⟩, ⟨rfl, rfl, ports.trusted, ?_⟩, fun wanted => ?_,
    fun wanted => ?_⟩
  · simp [filterDeclarations, Controller.compiler]
  · simp [filterDeclarations, Controller.compiler]
  · exact congrArg Family.keyType c.config.family.profile_family.symm
  · simp [filterDeclarations, Controller.compiler]
  · simp [filterDeclarations, Controller.compiler]
  · have wanted' : c.config.services.http = true := wanted
    have named : (numberedFilter c.config).httpPorts = number 3 (ofConfig c.config).httpPorts :=
      if_pos wanted'
    refine ⟨?_, ?_, ports.http, ?_⟩
    · exact congrArg MatchSet.table named
    · exact congrArg MatchSet.keyType named
    · simp [filterDeclarations, Controller.compiler, wanted']
  · have wanted' : c.config.services.smtp = true := wanted
    have named : (numberedFilter c.config).smtpPorts =
        number (3 + c.config.services.http.toNat) (ofConfig c.config).smtpPorts := if_pos wanted'
    refine ⟨?_, ?_, ports.smtp, ?_⟩
    · exact congrArg MatchSet.table named
    · exact congrArg MatchSet.keyType named
    · simp [filterDeclarations, Controller.compiler, wanted']

theorem declarations_serves : (c.compiler (numbered c.config)).ServesAll
    ((numbered c.config).declarations c.config ports) := by
  have filter := (filterDeclarations_serves c [] ports).mono (List.subset_append_left _
    [.addSet (numbered c.config).manager [], .addSet (numbered c.config).forwarded [],
      .addSet (numbered c.config).blacklist [], .addSet (numbered c.config).managerPorts ports.manager,
      .addTable (numbered c.config).nat, .addChain (numbered c.config).postrouting])
  have key : c.config.family.keyType = c.config.family.profile.family.keyType :=
    congrArg Family.keyType c.config.family.profile_family.symm
  have serves : (c.compiler (numbered c.config)).Serves ((numbered c.config).declarations c.config ports) :=
    ⟨filter.input, filter.output, filter.trusted, filter.trustedPorts, filter.httpPorts, filter.smtpPorts⟩
  refine ⟨serves, ⟨?_, rfl⟩, ⟨?_, rfl⟩, rfl, ⟨rfl, key, [], ?_⟩, ⟨rfl, key, [], ?_⟩, ⟨rfl, key, [], ?_⟩,
    ⟨rfl, rfl, ports.manager, ?_⟩⟩
  · simp [declarations, filterDeclarations, Controller.compiler]
  · simp [declarations, Controller.compiler]
  · simp [declarations, Controller.compiler]
  · simp [declarations, Controller.compiler]
  · simp [declarations, Controller.compiler]
  · simp [declarations, Controller.compiler]

end Policy

section Scope

variable {config : Config} {trusted : List Element} {ports : PortElements} {l : Layout}

theorem filterDeclarations_inScope :
    InScope [] ((numberedFilter config).filterDeclarations config trusted ports) := by
  have input : (numberedFilter config).input.table = (numberedFilter config).filter := rfl
  have forward : (numberedFilter config).forward.table = (numberedFilter config).filter := rfl
  have output : (numberedFilter config).output.table = (numberedFilter config).filter := rfl
  have sources : (numberedFilter config).trusted.table = (numberedFilter config).filter := rfl
  have trustedPorts : (numberedFilter config).trustedPorts.table = (numberedFilter config).filter := rfl
  have httpPorts : (numberedFilter config).httpPorts.table = (numberedFilter config).filter := by
    unfold numberedFilter
    dsimp only
    split <;> rfl
  have smtpPorts : (numberedFilter config).smtpPorts.table = (numberedFilter config).filter := by
    unfold numberedFilter
    dsimp only
    split <;> rfl
  unfold filterDeclarations
  cases config.services.http <;> cases config.services.smtp <;>
    simp [InScope, Declaration.InScope, input, forward, output, sources, trustedPorts, httpPorts, smtpPorts]

theorem declarations_inScope : InScope [] ((numbered config).declarations config ports) := by
  have filter : .addTable (numbered config).filter ∈
      (numbered config).filterDeclarations config [] ports := by
    simp [filterDeclarations]
  have manager : (numbered config).manager.table = (numbered config).filter := rfl
  have forwarded : (numbered config).forwarded.table = (numbered config).filter := rfl
  have blacklist : (numbered config).blacklist.table = (numbered config).filter := rfl
  have managerPorts : (numbered config).managerPorts.table = (numbered config).filter := rfl
  have postrouting : (numbered config).postrouting.table = (numbered config).nat := rfl
  refine inScope_append.mpr ⟨filterDeclarations_inScope, ?_⟩
  simp [InScope, Declaration.InScope, manager, forwarded, blacklist, managerPorts, postrouting, filter]

theorem filterDeclarations_bare :
    ∀ d ∈ l.filterDeclarations config trusted ports, d.rule? = none := by
  unfold filterDeclarations
  cases config.services.http <;> cases config.services.smtp <;> simp [Declaration.rule?]

theorem declarations_bare : ∀ d ∈ l.declarations config ports, d.rule? = none := by
  refine List.forall_mem_append.mpr ⟨filterDeclarations_bare, ?_⟩
  simp [Declaration.rule?]

end Scope

end Layout

theorem Kernel.commit_lastBatch {k k' : Kernel} {batch : Batch} {u : Unit}
    (h : k.commit batch = (.ok u, k')) : k'.lastBatch = batch := by
  unfold commit at h
  split at h
  · cases h
  · split at h
    · cases h
      rfl
    · cases h

theorem Pending.flush_total {p : Pending Kernel} {k : Kernel} (some : p.transaction.batch ≠ [])
    (commit : p.sink.commit p.transaction.batch = (.ok (), k)) : ∃ p', flush p = (.ok (), p') := by
  have nonempty : ¬ p.transaction.batch.isEmpty = true := by simp [some]
  have committed : Sink.commit p.transaction.batch p.sink = (.ok (), k) := commit
  unfold flush
  rw [if_neg nonempty, committed]
  exact ⟨_, rfl⟩

namespace Controller

/-- A layout that is declared behind a flush is installed if its rules can be queued and the kernel takes the
batch. -/
theorem install_taken {declare : Action (Pending Kernel) Layout}
    {plan : Layout → Except Error (List PlannedRule)} {p p₁ : Pending Kernel} {l : Layout}
    {rules : List PlannedRule} {batch : Batch} {k : Kernel} (declares : declare p = (.ok l, p₁))
    (reset : p₁.transaction.reset = true) (planned : plan l = .ok rules)
    (checked : ∀ r ∈ rules, r.data.program.validate r.chain.table.family = .ok () ∧
      ∀ s ∈ r.data.program.sets, (r.chain.table, s.name) ∈ p₁.transaction.declared)
    (all : p₁.transaction.batch ++ rules.map PlannedRule.declaration = .flushRuleset :: batch)
    (taken : p₁.sink.commit (.flushRuleset :: batch) = (.ok (), k)) :
    ∃ p', install declare plan p = (.ok l, p') := by
  have compiled : Action.ofExcept (plan l) p₁ = (.ok rules, p₁) := by
    rw [planned]
    rfl
  obtain ⟨p₂, queued⟩ := Compiler.queue_known (p := p₁) (fun r hr => (checked r hr).1)
    fun r hr => (checked r hr).2
  have collected := Compiler.queue_ok reset queued
  have whole : p₂.transaction.batch = .flushRuleset :: batch := by rw [collected, ← all]
  have same : p₂.sink = p₁.sink := by rw [collected]
  obtain ⟨p', flushed⟩ := Pending.flush_total (p := p₂) (k := k)
    (by rw [whole]; exact List.cons_ne_nil _ _) (by rw [whole, same]; exact taken)
  refine ⟨p', ?_⟩
  rw [install, Action.bind_eq declares, Action.bind_eq compiled, Action.bind_eq queued,
    Action.bind_eq flushed]
  rfl

/-- A layout is installed if it can be declared behind a flush, its declarations are in scope, and its rules
are from the builders. -/
theorem install_total {declare : Action (Pending Kernel) Layout}
    {plan : Layout → Except Error (List PlannedRule)} {p p₁ : Pending Kernel} {l : Layout}
    {rules : List PlannedRule} {declared : Batch} (declares : declare p = (.ok l, p₁))
    (reset : p₁.transaction.reset = true) (batch : p₁.transaction.batch = .flushRuleset :: declared)
    (keys : p₁.transaction.declared = (declared.filterMap Declaration.setKey?).reverse)
    (planned : plan l = .ok rules) (placed : ∀ r ∈ rules, Compiler.Placed declared r)
    (scope : InScope [] declared) (once : (declared.filterMap Declaration.setKey?).Nodup)
    (sound : p₁.sink.failNext = none) : ∃ p', install declare plan p = (.ok l, p') := by
  obtain ⟨k, commit, -⟩ := Kernel.commit_total sound (planned_inScope scope placed)
    (planned_setKeys once)
  refine install_taken declares reset planned (fun r hr => ⟨?_, ?_⟩) (by rw [batch]; rfl) commit
  · obtain ⟨parts, closing, built, -⟩ := (placed r hr).built
    exact (Nft.ruleProgram_ends built).validate
  · -- The transaction asks for the sets of a rule by name, the batch declares them with their numbers.
    intro s hs
    obtain ⟨set, elements, there, table, rfl⟩ := (placed r hr).finds s hs
    rw [keys, List.mem_reverse, ← table]
    exact List.mem_filterMap.mpr ⟨_, there, rfl⟩

theorem transact_eq {α : Type} {a : Action (Pending Kernel) α} {c : Controller Kernel} {b : α}
    {p : Pending Kernel} (h : a (Pending.begin c.sink) = (.ok b, p)) :
    transact a c = (.ok b, { c with sink := p.sink }) := by
  rw [transact, Action.on, h]

theorem inNamespace_current {α : Type} {c : Controller Kernel} (current : c.config.networkNamespace = "")
    (a : Action (Controller Kernel) α) : inNamespace a c = a c := by
  rw [inNamespace, Namespace.run_of_left (.inl current) (.inl current)]

/-- A controller that can install its policy: the configuration is valid, enabled and for the current
namespace, and the outside interface and address fit it. -/
structure Installable (c : Controller Kernel) : Prop where
  configured : c.Configured
  enabled : c.config.enabled = true
  current : c.config.networkNamespace = ""
  outside : FitsInterface c.outsideInterface
  own : c.config.family.contains c.outsideAddress = true

namespace Installable

variable {c : Controller Kernel} (installable : c.Installable)
include installable

theorem listed : ∀ i ∈ c.config.interfaces, FitsInterface i := fun i hi =>
  ((Config.validate_ok installable.configured.valid).interfaces i hi).fits

theorem baseline (ports : PortElements) :
    Compiler.Sound ((Layout.numbered c.config).declarations c.config ports)
      (c.compiler (Layout.numbered c.config)).baseline := by
  have valid := Config.validate_ok installable.configured.valid
  exact Compiler.baseline_sound installable.outside installable.listed
    (Layout.declarations_serves c ports) (fun has => (valid.overlayInterface has).fits) installable.own

theorem reduced (trusted : List Element) (ports : PortElements) :
    Compiler.Sound ((Layout.numberedFilter c.config).filterDeclarations c.config trusted ports)
      (c.compiler (Layout.numberedFilter c.config)).cleanup :=
  Compiler.cleanup_sound installable.outside installable.listed
    (Layout.filterDeclarations_serves c trusted ports)

/-- The policy is applied to every kernel that is not asked to fail. -/
theorem apply (sound : c.sink.failNext = none) :
    ∃ c', Controller.apply c = (.ok (), c') ∧ Admissible c'.sink.lastBatch := by
  obtain ⟨_, spells⟩ := Layout.spelled (Config.validate_ok installable.configured.valid)
  obtain ⟨l, p, declares⟩ := Layout.declareAll_sure spells (Pending.begin c.sink)
  obtain ⟨rfl, same, reset, ports, -, batch, keys⟩ := Layout.declareAll_ok declares
  obtain ⟨plan, planned, placed⟩ := installable.baseline ports
  have installs : ∃ p', install ((Layout.ofConfig c.config).declareAll c.config)
      (fun l => (c.compiler l).baseline) (Pending.begin c.sink) = (.ok (Layout.numbered c.config), p') :=
    install_total declares reset batch keys planned placed Layout.declarations_inScope
      Layout.declarations_setKeys (by rw [same]; exact sound)
  obtain ⟨p', installed⟩ := installs
  have applies : ∃ c', Controller.apply c = (.ok (), c') := by
    unfold Controller.apply
    rw [installable.enabled, Bool.not_true, if_neg Bool.false_ne_true,
      inNamespace_current installable.current, installable.configured.template,
      Action.bind_eq (transact_eq installed)]
    exact ⟨_, rfl⟩
  obtain ⟨c', applied⟩ := applies
  -- Success alone says what the batch is; its plan is the one that has been compiled above.
  obtain ⟨ports', plan', -, planned', commit, -⟩ :=
    apply_ok installable.configured installable.enabled applied
  obtain ⟨rules, compiled, placed'⟩ := installable.baseline ports'
  cases planned'.symm.trans compiled
  refine ⟨c', applied, ?_⟩
  rw [Kernel.commit_lastBatch commit]
  exact planned_admissible Layout.declarations_bare Layout.declarations_inScope placed'

/-- So is what is left of the policy after a cleanup, if the trusted elements can be declared again. -/
theorem cleanup (sound : c.sink.failNext = none)
    (checked : (Layout.ofConfig c.config).trusted.checkElements
      ((c.sink.elements c.layout.trusted).toOption.getD []) = .ok ()) :
    ∃ c', Controller.cleanup c = (.ok (), c') ∧ Admissible c'.sink.lastBatch := by
  generalize kept : (c.sink.elements c.layout.trusted).toOption.getD [] = trusted at checked
  obtain ⟨ports, spells⟩ := Layout.spelled (Config.validate_ok installable.configured.valid)
  obtain ⟨l, p, declares⟩ := Layout.declareReduced_sure spells checked (Pending.begin c.sink)
  obtain ⟨rfl, -, same, reset, batch, keys⟩ := Layout.declareReduced_ok spells declares
  obtain ⟨plan, planned, placed⟩ := installable.reduced trusted ports
  have installs : ∃ p', install ((Layout.ofConfig c.config).declareReduced c.config trusted)
      (fun l => (c.compiler l).cleanup) (Pending.begin c.sink) =
        (.ok (Layout.numberedFilter c.config), p') :=
    install_total declares reset batch keys planned placed Layout.filterDeclarations_inScope
      (Layout.filterDeclarations_setKeys _ _ _).1 (by rw [same]; exact sound)
  obtain ⟨p', installed⟩ := installs
  have cleans : ∃ c', Controller.cleanup c = (.ok (), c') := by
    unfold Controller.cleanup
    rw [installable.enabled, Bool.not_true, if_neg Bool.false_ne_true,
      inNamespace_current installable.current, installable.configured.template,
      Action.bind_eq (elementsOrNone_eq c.layout.trusted c), kept,
      Action.bind_eq (transact_eq installed)]
    exact ⟨_, rfl⟩
  obtain ⟨c', cleaned⟩ := cleans
  obtain ⟨ports', plan', -, planned', -, commit, -⟩ :=
    cleanup_ok installable.configured installable.enabled cleaned
  rw [kept] at commit
  obtain ⟨rules, compiled, placed'⟩ := installable.reduced trusted ports'
  cases planned'.symm.trans compiled
  refine ⟨c', cleaned, ?_⟩
  rw [Kernel.commit_lastBatch commit]
  exact planned_admissible Layout.filterDeclarations_bare Layout.filterDeclarations_inScope placed'

end Installable

/-- A valid configuration for the current namespace is applied to every kernel that is not asked to fail,
whatever the kernel holds and the controller has done, and cleaned up at every point of every run from an
empty kernel, also by a controller that has been started in the middle of it. The outside address can be any
that stands for one of the family. The rules of the batches are in order, look up sets that the batch has
declared before, and can be written. -/
theorem valid_config_installs {config : Config} {c₀ : Controller Kernel} (reached : Reached config c₀)
    (enabled : config.enabled = true) (current : config.networkNamespace = "")
    (outside : FitsInterface c₀.outsideInterface)
    (own : config.family.contains c₀.outsideAddress = true) :
    (∀ (k : Kernel) (layout : Layout) (applied : Bool), k.failNext = none →
      ∃ c, apply { c₀ with layout, applied, sink := k } = (.ok (), c) ∧ Admissible c.sink.lastBatch) ∧
    (c₀.sink.failNext = none →
      ∃ c, cleanup c₀ = (.ok (), c) ∧ Admissible c.sink.lastBatch) := by
  have checked := reached.kept.elements_checked
  obtain ⟨rfl, configured, -, -⟩ := reached.kept
  constructor
  · intro k layout applied sound
    have installable : Installable { c₀ with layout, applied, sink := k } :=
      ⟨⟨configured.valid, configured.template⟩, enabled, current, outside, own⟩
    exact installable.apply sound
  · intro sound
    exact Installable.cleanup ⟨configured, enabled, current, outside, own⟩ sound checked

/-- The gateway started again behind an applied policy, which it takes over and changes. -/
def takenOver : Controller Kernel :=
  Event.runAll [.run .attach, .run (.update .trusted [] ["198.51.100.7"])]
    { gateway with sink := (Event.runAll [.run .apply, .failNext "busy", .run .cleanup] gateway).sink }

theorem takenOver_reached : Reached gateway.config takenOver := by
  have before : Reached gateway.config
      (Event.runAll [.run .apply, .failNext "busy", .run .cleanup] gateway) :=
    (Reached.first (start_fresh gateway_started)).runAll _
  exact (Reached.again before (start_fresh (gateway_startedOn _))).runAll _

/-- The gateway behind an outside address that stands for its IPv4 address. -/
def mapped : Controller Kernel := { gateway with outsideAddress := .v6 0xFFFFCB007107 }

theorem mapped_reached : Reached gateway.config mapped :=
  .first ⟨rfl, ⟨gateway_configured.valid, rfl⟩, rfl, rfl, rfl⟩

theorem valid_config_installs_takenOver :
    takenOver.applied = true ∧ Reached gateway.config takenOver ∧
      FitsInterface takenOver.outsideInterface ∧
      gateway.config.family.contains takenOver.outsideAddress = true ∧
      (∃ c, apply { takenOver with layout := gateway.layout, applied := false, sink := Kernel.empty } =
        (.ok (), c) ∧ Admissible c.sink.lastBatch) ∧
      (∃ c, cleanup takenOver = (.ok (), c) ∧ Admissible c.sink.lastBatch) ∧
      mapped.outsideAddress.family ≠ gateway.config.family ∧
      ∃ c, apply mapped = (.ok (), c) ∧ Admissible c.sink.lastBatch := by
  have facts : takenOver.applied = true ∧ takenOver.sink.failNext = none ∧
      takenOver.outsideInterface = gateway.outsideInterface ∧
      takenOver.outsideAddress = gateway.outsideAddress := by decide +kernel
  obtain ⟨applied, sound, interface, address⟩ := facts
  have outside : FitsInterface takenOver.outsideInterface := by
    rw [interface]
    constructor <;> decide
  have own : gateway.config.family.contains takenOver.outsideAddress = true := by
    rw [address]
    decide
  have installs := valid_config_installs takenOver_reached rfl rfl outside own
  have outside' : FitsInterface mapped.outsideInterface := by constructor <;> decide
  have installs' := valid_config_installs mapped_reached rfl rfl outside' (by decide)
  exact ⟨applied, takenOver_reached, outside, own, installs.1 .empty gateway.layout false rfl,
    installs.2 sound, by decide, installs'.1 .empty gateway.layout false rfl⟩

end Controller
end Firewall
