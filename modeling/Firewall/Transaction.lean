import Firewall.Program.Check
import Firewall.Sink

namespace Firewall

/-- What a transaction has collected. -/
structure Transaction where
  batch : Batch
  nextSetId : Nat
  declared : List (Table × String)
  /-- The batch removes what is installed. -/
  reset : Bool
  deriving DecidableEq, Repr

/-- A transaction and the sink that it will be flushed to. -/
structure Pending (σ : Type) where
  transaction : Transaction
  sink : σ

namespace Transaction

def empty : Transaction := ⟨[], 1, [], false⟩

def push (t : Transaction) (d : Declaration) : Transaction := { t with batch := t.batch ++ [d] }

def flushRuleset (t : Transaction) : Transaction :=
  { t.push .flushRuleset with declared := [], reset := true }

def addTable (t : Transaction) (table : Table) : Transaction := t.push (.addTable table)

def addChain (t : Transaction) (chain : Chain) : Transaction := t.push (.addChain chain)

def deleteRule (t : Transaction) (chain : Chain) (handle : Nat) : Transaction :=
  t.push (.deleteRule chain.table chain.name handle)

end Transaction

def anonymousName (n : Nat) : String := "__set" ++ decimalText n

/-- Set numbers are below this bound. -/
def setNumberBound : Nat := 0x100000000

namespace Pending

variable {σ : Type} [Sink σ]

def begin (sink : σ) : Pending σ := ⟨.empty, sink⟩

def collect (f : Transaction → Transaction) : Action (Pending σ) Unit :=
  .change fun p => { p with transaction := f p.transaction }

def onSink (a : Action σ α) : Action (Pending σ) α :=
  a.on (·.sink) fun p sink => { p with sink }

/-- Whether a set is known. The sink is only asked about sets that the transaction has not declared,
and never behind a flush of the ruleset. -/
def knows (table : Table) (name : String) (p : Pending σ) : Bool × Pending σ :=
  if p.transaction.declared.contains (table, name) then (true, p)
  else if p.transaction.reset then (false, p)
  else
    match Sink.hasSet table name p.sink with
    | (known, sink) => (known, { p with sink })

/-- The first number from `n` on whose anonymous name no known set of the table has; at most `tries`
numbers are tried. -/
def freshNumber (table : Table) : Nat → Nat → Pending σ → Nat × Pending σ
  | 0, n, p => (n, p)
  | tries + 1, n, p =>
    match knows table (anonymousName n) p with
    | (true, p) => freshNumber table tries (n + 1) p
    | (false, p) => (n, p)

/-- The next set number, which the set gets as its id. -/
def takeId : Action (Pending σ) Nat := fun p =>
  let n := p.transaction.nextSetId
  (.ok n, { p with transaction := { p.transaction with nextSetId := n + 1 } })

/-- The name for an anonymous set with that id; later ids are greater than the number in the name. -/
def takeName (table : Table) (id : Nat) : Action (Pending σ) String := fun p =>
  match freshNumber table (setNumberBound - id) id p with
  | (n, p) =>
    let next := max p.transaction.nextSetId (n + 1)
    (.ok (anonymousName n), { p with transaction := { p.transaction with nextSetId := next } })

/-- Declares a set with elements, and returns it as rules have to refer to it: with its id, and with a
name if it is anonymous. -/
def addSet (set : MatchSet) (elements : List Element) : Action (Pending σ) MatchSet := do
  let id ← takeId
  let name ←
    if set.flags.anonymous ∧ set.name = "" then takeName set.table id else pure set.name
  let set := { set with id, name }
  if name = "" then .fail .setUnnamed
  else
    .ofExcept (set.checkElements elements)
    collect fun t =>
      { t.push (.addSet set elements) with declared := (set.table, name) :: t.declared }
    return set

/-- Fails for a set that is not known. -/
def requireSet (table : Table) (name : String) : Action (Pending σ) Unit := do
  if ← .ofState (knows table name) then pure () else .fail (.setUnknown name table)

def requireSets (table : Table) : List SetRef → Action (Pending σ) Unit
  | [] => pure ()
  | s :: ss => do
    requireSet table s.name
    requireSets table ss

/-- Collects a change of a set's elements, unless there are none. -/
def changeElements (d : MatchSet → List Element → Declaration) (set : MatchSet)
    (elements : List Element) : Action (Pending σ) Unit := do
  if elements.isEmpty then pure ()
  else
    .ofExcept (set.checkElements elements)
    requireSet set.table set.name
    collect fun t => t.push (d set elements)

def addElements (set : MatchSet) (elements : List Element) : Action (Pending σ) Unit :=
  changeElements .addElements set elements

def deleteElements (set : MatchSet) (elements : List Element) : Action (Pending σ) Unit :=
  changeElements .deleteElements set elements

/-- Collects a rule whose program is in order and whose sets are known. -/
def placeRule (d : Rule → Declaration) (chain : Chain) (data : RuleData) :
    Action (Pending σ) Unit := do
  .ofExcept (data.program.validate chain.table.family)
  requireSets chain.table data.program.sets
  collect fun t => t.push (d ⟨chain.table, chain.name, data⟩)

def addRule (chain : Chain) (data : RuleData) : Action (Pending σ) Unit :=
  placeRule .addRule chain data

/-- Inserts a rule at the top of a chain, or in front of the rule with a handle. -/
def insertRule (chain : Chain) (data : RuleData) (before : Option Nat) : Action (Pending σ) Unit :=
  placeRule (fun rule => .insertRule rule before) chain data

/-- Hands what is collected to the sink; nothing is done if there is nothing. What was collected is
gone also if the sink refuses it. -/
def flush : Action (Pending σ) Unit := fun p =>
  if p.transaction.batch.isEmpty then (.ok (), p)
  else
    match Sink.commit p.transaction.batch p.sink with
    | (r, sink) =>
      (r, ⟨{ p.transaction with batch := [], declared := [], reset := false }, sink⟩)

end Pending
end Firewall
