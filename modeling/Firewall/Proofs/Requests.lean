import Firewall.Proofs.Refusal
import Firewall.Proofs.Store
import Firewall.Proofs.Success

namespace Firewall

/-- The elements that a declaration adds, with the set that it adds them to. -/
def Declaration.additions? : Declaration → Option (MatchSet × List Element)
  | .addSet set elements => some (set, elements)
  | .addElements set elements => some (set, elements)
  | _ => none

def Transaction.record (t : Transaction) : Declaration → Transaction
  | .flushRuleset => t.flushRuleset
  | .addSet set elements =>
    { t.push (.addSet set elements) with declared := (set.table, set.name) :: t.declared }
  | d => t.push d

theorem Transaction.record_batch (t : Transaction) (d : Declaration) :
    (t.record d).batch = t.batch ++ [d] := by
  cases d <;> rfl

def Transaction.numbered (t : Transaction) (n : Nat) : Transaction := { t with nextSetId := n }

/-- What a transaction can be asked to do. -/
inductive TransactionRequest where
  | flushRuleset
  | addTable (table : Table)
  | addChain (chain : Chain)
  | addSet (set : MatchSet) (elements : List Element)
  | addElements (set : MatchSet) (elements : List Element)
  | deleteElements (set : MatchSet) (elements : List Element)
  | addRule (chain : Chain) (data : RuleData)
  | insertRule (chain : Chain) (data : RuleData) (before : Option Nat)
  | deleteRule (chain : Chain) (handle : Nat)
  | flush
  deriving DecidableEq, Repr

namespace TransactionRequest

def run : TransactionRequest → Action (Pending Kernel) (Option MatchSet)
  | .flushRuleset => do
    Pending.collect Transaction.flushRuleset
    return none
  | .addTable table => do
    Pending.collect (Transaction.addTable · table)
    return none
  | .addChain chain => do
    Pending.collect (Transaction.addChain · chain)
    return none
  | .addSet set elements => do
    let set ← Pending.addSet set elements
    return some set
  | .addElements set elements => do
    Pending.addElements set elements
    return none
  | .deleteElements set elements => do
    Pending.deleteElements set elements
    return none
  | .addRule chain data => do
    Pending.addRule chain data
    return none
  | .insertRule chain data before => do
    Pending.insertRule chain data before
    return none
  | .deleteRule chain handle => do
    Pending.collect (Transaction.deleteRule · chain handle)
    return none
  | .flush => do
    Pending.flush
    return none

def runAll : List TransactionRequest → Pending Kernel → Pending Kernel
  | [], p => p
  | req :: reqs, p => runAll reqs (req.run p).2

/-- The declarations that a request can collect; a set gets its id, and a name if it is anonymous. -/
def Asks : TransactionRequest → Declaration → Prop
  | .flushRuleset, d => d = .flushRuleset
  | .addTable table, d => d = .addTable table
  | .addChain chain, d => d = .addChain chain
  | .addSet set elements, d => ∃ id name, d = .addSet { set with id, name } elements
  | .addElements set elements, d => d = .addElements set elements
  | .deleteElements set elements, d => d = .deleteElements set elements
  | .addRule chain data, d => d = .addRule ⟨chain.table, chain.name, data⟩
  | .insertRule chain data before, d => d = .insertRule ⟨chain.table, chain.name, data⟩ before
  | .deleteRule chain handle, d => d = .deleteRule chain.table chain.name handle
  | .flush, _ => False

end TransactionRequest

/-- What becomes of a transaction that is asked for a declaration: nothing but the number of the next set
changes, also when it is refused for a set that is not known, or the declaration is collected. -/
inductive Pending.Effect {α : Type} (asks : Declaration → Prop) (p : Pending Kernel) :
    Except Error α × Pending Kernel → Prop where
  | nothing (result : Except Error α) (n : Nat)
      (known : ∀ name table, result ≠ .error (.setUnknown name table)) :
    Effect asks p (result, ⟨p.transaction.numbered n, p.sink⟩)
  | unknown {d : Declaration} (asked : asks d) {key : Table × String}
      (first : d.needs.find? (fun key => !(p.knows key.1 key.2).1) = some key) :
    Effect asks p (.error (.setUnknown key.2 key.1), p)
  | collected {d : Declaration} (asked : asks d) (a : α) (n : Nat)
      (known : ∀ key ∈ d.needs, (p.knows key.1 key.2).1 = true)
      (fits : ∀ set elements, d.additions? = some (set, elements) → set.checkElements elements = .ok ()) :
    Effect asks p (.ok a, ⟨(p.transaction.numbered n).record d, p.sink⟩)

/-- The check of elements does not ask whether a set is known. -/
theorem MatchSet.checkElements_known {set : MatchSet} {elements : List Element} {name : String}
    {table : Table} : set.checkElements elements ≠ .error (.setUnknown name table) := by
  induction elements with
  | nil => exact nofun
  | cons e es ih =>
    rw [checkElements]
    cases fault : set.checkElement e with
    | ok => exact ih
    | error cause =>
      rintro same
      cases same
      unfold checkElement at fault
      dsimp only at fault
      split at fault
      · cases fault
      · split at fault
        · cases fault
        · split at fault <;> cases fault

theorem Action.bind_fails {σ α β : Type} {x : Action σ α} {f : α → Action σ β} {s s' : σ} {e : Error}
    (h : x s = (.error e, s')) : (x >>= f) s = (.error e, s') := by
  show andThen x f s = _
  rw [andThen, h]

theorem Action.bind_pure_eq {σ α β : Type} (x : Action σ α) (f : α → β) (s : σ) :
    (x >>= fun a => Pure.pure (f a) : Action σ β) s = ((x s).1.map f, (x s).2) := by
  cases run : x s with
  | mk result s' =>
    cases result with
    | ok a => exact bind_eq run
    | error e => exact bind_fails run

namespace Pending

variable {α β : Type} {asks : Declaration → Prop} {p p' : Pending Kernel}

theorem Effect.result {a : Action (Pending Kernel) α} (f : α → β) (effect : Effect asks p (a p)) :
    Effect asks p ((a >>= fun x => Pure.pure (f x) : Action (Pending Kernel) β) p) := by
  rw [Action.bind_pure_eq]
  cases run : a p with
  | mk result p' =>
    rw [run] at effect
    cases effect with
    | nothing result n known =>
      refine .nothing _ n fun name table same => ?_
      cases result with
      | ok x => cases same
      | error e => exact known name table (congrArg Except.error (Except.error.inj same))
    | unknown asked first => exact .unknown asked first
    | collected asked x n known fits => exact .collected asked (f x) n known fits

/-- The answer about a set without the transaction that gives it. -/
theorem knows_eq (table : Table) (name : String) (p : Pending Kernel) :
    (knows table name p).1 = (p.transaction.declared.contains (table, name) ||
      !p.transaction.reset && (p.sink.ruleset.set? table name).isSome) := by
  unfold knows
  cases p.transaction.declared.contains (table, name) with
  | true => rfl
  | false => cases p.transaction.reset <;> rfl

theorem requireSet_eq (table : Table) (name : String) (p : Pending Kernel) :
    requireSet table name p =
      (if (knows table name p).1 then .ok () else .error (.setUnknown name table), p) := by
  have asked : Action.ofState (knows table name) p = (.ok (knows table name p).1, p) := by
    rw [Action.ofState]
    exact congrArg (Prod.mk _) (knows_kernel table name p)
  rw [requireSet, Action.bind_eq asked]
  cases (knows table name p).1 <;> rfl

/-- The first set that is not known is reported. -/
theorem requireSets_eq (table : Table) (sets : List SetRef) (p : Pending Kernel) :
    requireSets table sets p =
      (match sets.find? fun s => !(knows table s.name p).1 with
        | none => .ok ()
        | some s => .error (.setUnknown s.name table), p) := by
  induction sets with
  | nil => rfl
  | cons s sets ih =>
    rw [requireSets]
    cases known : (knows table s.name p).1 with
    | true =>
      have asked : requireSet table s.name p = (.ok (), p) := by rw [requireSet_eq, known, if_pos rfl]
      rw [Action.bind_eq asked, ih, List.find?_cons_of_neg (by simp [known])]
    | false =>
      have asked : requireSet table s.name p = (.error (.setUnknown s.name table), p) := by
        rw [requireSet_eq, known, if_neg Bool.false_ne_true]
      rw [List.find?_cons_of_pos (by simp [known])]
      exact Action.bind_fails asked

/-- Elements are collected if they fit and their set is known. -/
theorem changeElements_eq (make : MatchSet → List Element → Declaration) (set : MatchSet)
    (elements : List Element) (p : Pending Kernel) :
    changeElements make set elements p =
      if elements.isEmpty then (.ok (), p)
      else match set.checkElements elements with
        | .error fault => (.error fault, p)
        | .ok () =>
          if (knows set.table set.name p).1 then (.ok (), ⟨p.transaction.push (make set elements), p.sink⟩)
          else (.error (.setUnknown set.name set.table), p) := by
  unfold changeElements
  split
  · rfl
  · cases set.checkElements elements with
    | error fault => exact Action.bind_fails rfl
    | ok =>
      have passed : Action.ofExcept (.ok () : Except Error Unit) p = (.ok (), p) := rfl
      have required := requireSet_eq set.table set.name p
      rw [Action.bind_eq passed]
      cases known : (knows set.table set.name p).1 with
      | false =>
        rw [known] at required
        exact Action.bind_fails required
      | true =>
        rw [known] at required
        exact Action.bind_eq required

theorem changeElements_effect {make : MatchSet → List Element → Declaration} {set : MatchSet}
    {elements : List Element} (asked : asks (make set elements))
    (needs : (make set elements).needs = [(set.table, set.name)])
    (additions : ∀ s es, (make set elements).additions? = some (s, es) → s = set ∧ es = elements)
    (plain : ∀ t : Transaction, t.record (make set elements) = t.push (make set elements)) :
    Effect asks p (changeElements make set elements p) := by
  rw [changeElements_eq]
  split
  · exact .nothing (.ok ()) p.transaction.nextSetId fun _ _ => nofun
  · cases check : set.checkElements elements with
    | error e =>
      refine .nothing (.error e) p.transaction.nextSetId fun name table same => ?_
      cases same
      exact MatchSet.checkElements_known check
    | ok =>
      cases known : (knows set.table set.name p).1 with
      | false =>
        have first : (make set elements).needs.find? (fun key => !(p.knows key.1 key.2).1) =
            some (set.table, set.name) := by
          rw [needs, List.find?_cons_of_pos (by simp [known])]
        exact .unknown asked first
      | true =>
        have all : ∀ key ∈ (make set elements).needs, (p.knows key.1 key.2).1 = true := by
          rw [needs]
          simpa using known
        have fits : ∀ s es, (make set elements).additions? = some (s, es) → s.checkElements es = .ok () := by
          intro s es added
          obtain ⟨rfl, rfl⟩ := additions s es added
          exact check
        have effect := Effect.collected asked () p.transaction.nextSetId all fits
        rw [plain] at effect
        exact effect

/-- A rule is collected if its program is in order and its sets are known. -/
theorem placeRule_effect {make : Rule → Declaration} {chain : Chain} {data : RuleData}
    (asked : asks (make ⟨chain.table, chain.name, data⟩))
    (needs : (make ⟨chain.table, chain.name, data⟩).needs =
      data.program.sets.map fun s => (chain.table, s.name))
    (additions : (make ⟨chain.table, chain.name, data⟩).additions? = none)
    (plain : ∀ t : Transaction, t.record (make ⟨chain.table, chain.name, data⟩) =
      t.push (make ⟨chain.table, chain.name, data⟩)) :
    Effect asks p (placeRule make chain data p) := by
  have first : (make ⟨chain.table, chain.name, data⟩).needs.find? (fun key => !(p.knows key.1 key.2).1) =
      (data.program.sets.find? fun s => !(p.knows chain.table s.name).1).map
        fun s => (chain.table, s.name) := by
    rw [needs, List.find?_map]
    rfl
  unfold placeRule
  cases valid : data.program.validate chain.table.family with
  | error e =>
    have refused : Action.ofExcept (.error e : Except Error Unit) p = (.error e, p) := rfl
    rw [Action.bind_fails refused]
    refine .nothing (.error e) p.transaction.nextSetId fun name table same => ?_
    cases same
    unfold Program.validate at valid
    split at valid <;> cases valid
  | ok =>
    have passed : Action.ofExcept (.ok () : Except Error Unit) p = (.ok (), p) := rfl
    rw [Action.bind_eq passed]
    have required := requireSets_eq chain.table data.program.sets p
    cases found : data.program.sets.find? (fun s => !(p.knows chain.table s.name).1) with
    | some s =>
      rw [found] at required first
      rw [Action.bind_fails required]
      exact .unknown asked first
    | none =>
      rw [found] at required first
      have all : ∀ key ∈ (make ⟨chain.table, chain.name, data⟩).needs, (p.knows key.1 key.2).1 = true :=
        fun key hk => by simpa using List.find?_eq_none.mp first key hk
      have fits : ∀ s es, (make ⟨chain.table, chain.name, data⟩).additions? = some (s, es) →
          s.checkElements es = .ok () := by
        intro s es added
        rw [additions] at added
        cases added
      have effect := Effect.collected asked () p.transaction.nextSetId all fits
      rw [Action.bind_eq required]
      rw [plain] at effect
      exact effect

/-- What does not concern sets is always collected. -/
theorem collect_effect {d : Declaration} {f : Transaction → Transaction} (asked : asks d)
    (needs : d.needs = []) (additions : d.additions? = none) (records : ∀ t : Transaction, f t = t.record d) :
    Effect asks p (collect f p) := by
  have all : ∀ key ∈ d.needs, (p.knows key.1 key.2).1 = true := by
    rw [needs]
    exact fun key hk => absurd hk List.not_mem_nil
  have fits : ∀ s es, d.additions? = some (s, es) → s.checkElements es = .ok () := by
    intro s es added
    rw [additions] at added
    cases added
  have effect := Effect.collected asked () p.transaction.nextSetId all fits
  have result : collect f p = (.ok (), ⟨p.transaction.record d, p.sink⟩) := by
    rw [← records]
    rfl
  rw [result]
  exact effect

/-- The number in the name that an anonymous set gets: the first from its id on that is in no name of a known set
of the table. -/
def nameNumber (table : Table) (p : Pending Kernel) : Nat :=
  let id := p.transaction.nextSetId
  (freshNumber table (setNumberBound - id) id ⟨p.transaction.numbered (id + 1), p.sink⟩).1

/-- A set with the next number as its id, and with a generated name if it has none and is anonymous. -/
def formed (set : MatchSet) (p : Pending Kernel) : MatchSet :=
  { set with
    id := p.transaction.nextSetId
    name :=
      if set.flags.anonymous ∧ set.name = "" then anonymousName (p.nameNumber set.table) else set.name }

/-- The number for the set behind one that is asked for. -/
def numberBehind (set : MatchSet) (p : Pending Kernel) : Nat :=
  if set.flags.anonymous ∧ set.name = "" then
    max (p.transaction.nextSetId + 1) (p.nameNumber set.table + 1)
  else p.transaction.nextSetId + 1

/-- A set with its number and name is collected if its elements fit. -/
theorem declare_eq (set : MatchSet) (elements : List Element) (p : Pending Kernel) :
    (if set.name = "" then Action.fail .setUnnamed
      else do
        Action.ofExcept (set.checkElements elements)
        collect fun t =>
          { t.push (.addSet set elements) with declared := (set.table, set.name) :: t.declared }
        return set : Action (Pending Kernel) MatchSet) p =
      if set.name = "" then (.error .setUnnamed, p)
      else match set.checkElements elements with
        | .error fault => (.error fault, p)
        | .ok () => (.ok set, ⟨p.transaction.record (.addSet set elements), p.sink⟩) := by
  split
  · rfl
  · cases set.checkElements elements with
    | error fault => exact Action.bind_fails rfl
    | ok => rfl

/-- A set is declared as it is formed, if it has a name and its elements fit; its numbers are used up anyway. -/
theorem addSet_eq (set : MatchSet) (elements : List Element) (p : Pending Kernel) :
    addSet set elements p =
      let s := p.formed set
      let t := p.transaction.numbered (p.numberBehind set)
      if s.name = "" then (.error .setUnnamed, ⟨t, p.sink⟩)
      else match s.checkElements elements with
        | .error fault => (.error fault, ⟨t, p.sink⟩)
        | .ok () => (.ok s, ⟨t.record (.addSet s elements), p.sink⟩) := by
  have numbered : takeId p = (.ok p.transaction.nextSetId,
    ⟨p.transaction.numbered (p.transaction.nextSetId + 1), p.sink⟩) := rfl
  unfold addSet
  rw [Action.bind_eq numbered]
  dsimp only
  by_cases nameless : set.flags.anonymous = true ∧ set.name = ""
  · have named : takeName set.table p.transaction.nextSetId
        ⟨p.transaction.numbered (p.transaction.nextSetId + 1), p.sink⟩ =
          (.ok (anonymousName (p.nameNumber set.table)), ⟨p.transaction.numbered
            (max (p.transaction.nextSetId + 1) (p.nameNumber set.table + 1)), p.sink⟩) := by
      unfold takeName
      have kept := freshNumber_kernel set.table (setNumberBound - p.transaction.nextSetId)
        p.transaction.nextSetId ⟨p.transaction.numbered (p.transaction.nextSetId + 1), p.sink⟩
      split
      rename_i n q free
      have number : p.nameNumber set.table = n := congrArg Prod.fst free
      rw [free] at kept
      cases kept
      rw [number]
      rfl
    rw [if_pos nameless, Action.bind_eq named, formed, numberBehind, if_pos nameless, if_pos nameless]
    exact declare_eq { set with
      id := p.transaction.nextSetId, name := anonymousName (p.nameNumber set.table) } elements _
  · have named : (pure set.name : Action (Pending Kernel) String)
        ⟨p.transaction.numbered (p.transaction.nextSetId + 1), p.sink⟩ =
          (.ok set.name, ⟨p.transaction.numbered (p.transaction.nextSetId + 1), p.sink⟩) := rfl
    rw [if_neg nameless, Action.bind_eq named, formed, numberBehind, if_neg nameless, if_neg nameless]
    exact declare_eq { set with id := p.transaction.nextSetId } elements _

/-- A request for a set is refused, and not for a set that is not known, or the set is declared as it is formed. -/
theorem addSet_cases (set : MatchSet) (elements : List Element) (p : Pending Kernel) :
    (∃ e, (∀ name table, e ≠ .setUnknown name table) ∧
      addSet set elements p = (.error e, ⟨p.transaction.numbered (p.numberBehind set), p.sink⟩)) ∨
    (p.formed set).checkElements elements = .ok () ∧ addSet set elements p = (.ok (p.formed set),
      ⟨(p.transaction.numbered (p.numberBehind set)).record (.addSet (p.formed set) elements), p.sink⟩) := by
  rw [addSet_eq]
  dsimp only
  split
  · exact .inl ⟨.setUnnamed, fun _ _ => nofun, rfl⟩
  · cases check : (p.formed set).checkElements elements with
    | error e =>
      refine .inl ⟨e, fun name table same => ?_, rfl⟩
      cases same
      exact MatchSet.checkElements_known check
    | ok => exact .inr ⟨rfl, rfl⟩

/-- A set is collected with the next number, under its own name or a generated one. -/
theorem addSet_effect {set : MatchSet} {elements : List Element}
    (asked : ∀ id name, asks (.addSet { set with id, name } elements)) :
    Effect asks p (addSet set elements p) := by
  rcases addSet_cases set elements p with ⟨e, known, refused⟩ | ⟨check, declared⟩
  · rw [refused]
    exact .nothing (.error e) _ fun name table same => known name table (Except.error.inj same)
  · have fits : ∀ s es, (Declaration.addSet (p.formed set) elements).additions? = some (s, es) →
        s.checkElements es = .ok () := by
      intro s es added
      cases added
      exact check
    rw [declared]
    exact .collected (asked _ _) (p.formed set) _ (fun key hk => absurd hk List.not_mem_nil) fits

end Pending

namespace TransactionRequest

open Pending

variable {p : Pending Kernel}

theorem run_flush (p : Pending Kernel) :
    flush.run p = ((Pending.flush p).1.map fun _ => none, (Pending.flush p).2) :=
  Action.bind_pure_eq Pending.flush (fun _ => none) p

theorem run_addSet (set : MatchSet) (elements : List Element) (p : Pending Kernel) :
    (addSet set elements).run p =
      ((Pending.addSet set elements p).1.map some, (Pending.addSet set elements p).2) :=
  Action.bind_pure_eq (Pending.addSet set elements) some p

/-- What every request but a flush makes of a transaction. -/
theorem run_effect {req : TransactionRequest} (collects : req ≠ .flush) : p.Effect req.Asks (req.run p) := by
  cases req with
  | flushRuleset =>
    have effect : p.Effect (Asks .flushRuleset) (collect Transaction.flushRuleset p) :=
      collect_effect rfl rfl rfl fun _ => rfl
    exact effect.result _
  | addTable table =>
    have effect : p.Effect (Asks (.addTable table)) (collect (Transaction.addTable · table) p) :=
      collect_effect rfl rfl rfl fun _ => rfl
    exact effect.result _
  | addChain chain =>
    have effect : p.Effect (Asks (.addChain chain)) (collect (Transaction.addChain · chain) p) :=
      collect_effect rfl rfl rfl fun _ => rfl
    exact effect.result _
  | addSet set elements => exact (addSet_effect fun id name => ⟨id, name, rfl⟩).result _
  | addElements set elements =>
    have effect : p.Effect (Asks (.addElements set elements)) (Pending.addElements set elements p) :=
      changeElements_effect rfl rfl (by rintro s es ⟨⟩; exact ⟨rfl, rfl⟩) fun _ => rfl
    exact effect.result _
  | deleteElements set elements =>
    have effect : p.Effect (Asks (.deleteElements set elements)) (Pending.deleteElements set elements p) :=
      changeElements_effect rfl rfl (by rintro s es ⟨⟩) fun _ => rfl
    exact effect.result _
  | addRule chain data =>
    have effect : p.Effect (Asks (.addRule chain data)) (Pending.addRule chain data p) :=
      placeRule_effect rfl rfl rfl fun _ => rfl
    exact effect.result _
  | insertRule chain data before =>
    have effect : p.Effect (Asks (.insertRule chain data before)) (Pending.insertRule chain data before p) :=
      placeRule_effect rfl rfl rfl fun _ => rfl
    exact effect.result _
  | deleteRule chain handle =>
    have effect : p.Effect (Asks (.deleteRule chain handle))
        (collect (Transaction.deleteRule · chain handle) p) :=
      collect_effect rfl rfl rfl fun _ => rfl
    exact effect.result _
  | flush => exact absurd rfl collects

/-- Nothing but a flush hands anything over. -/
theorem runAll_sink {reqs : List TransactionRequest} (collect : .flush ∉ reqs) (p : Pending Kernel) :
    (runAll reqs p).sink = p.sink := by
  induction reqs generalizing p with
  | nil => rfl
  | cons req reqs ih =>
    rw [List.mem_cons, not_or] at collect
    have effect := run_effect (p := p) (Ne.symm collect.1)
    rw [runAll, ih collect.2]
    cases run : req.run p with
    | mk result p' =>
      rw [run] at effect
      cases effect <;> rfl

end TransactionRequest

end Firewall
