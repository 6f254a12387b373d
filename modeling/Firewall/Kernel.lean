import Firewall.Ruleset.Decision
import Firewall.Sink

namespace Firewall

/-- The state of the kernel model. -/
structure Kernel where
  ruleset : Ruleset
  /-- The number of batches committed so far. -/
  commits : Nat
  /-- The reason for which the next commit fails, whatever its batch. -/
  failNext : Option String
  /-- The batch committed last. -/
  lastBatch : Batch
  deriving DecidableEq, Repr

namespace Kernel

def empty : Kernel := ⟨.empty, 0, none, []⟩

/-- Makes the next commit fail. -/
def failing (k : Kernel) (reason : String) : Kernel := { k with failNext := some reason }

/-- Applies a batch. A failure leaves everything as it was, but for a failure that was asked for, which
occurs once. -/
def commit (batch : Batch) (k : Kernel) : Except Error Unit × Kernel :=
  match k.failNext with
  | some reason => (.error (.commitFailed reason), { k with failNext := none })
  | none =>
    match k.ruleset.applyAll 0 batch with
    | .ok ruleset => (.ok (), ⟨ruleset, k.commits + 1, none, batch⟩)
    | .error (index, cause) => (.error (.declarationRejected index cause), k)

def elements (k : Kernel) (set : MatchSet) : Except Error (List Element) :=
  match k.ruleset.set? set.table set.name with
  | some s => .ok s.elements
  | none => .error (.rejected (.noSet set.name))

def hasSet (k : Kernel) (t : Table) (name : String) : Bool := (k.ruleset.set? t name).isSome

instance : Sink Kernel where
  commit := commit
  rules t chain := fun k => (k.ruleset.rules t chain, k)
  elements set := fun k => (k.elements set, k)
  hasSet t name := fun k => (k.hasSet t name, k)

def tables (k : Kernel) : List Table := k.ruleset.tables.map (·.table)

/-- The chains of a table; none if there is no such table. -/
def chains (k : Kernel) (t : Table) : List Chain :=
  ((k.ruleset.table? t).map fun i => i.chains.map (·.chain)).getD []

def chain? (k : Kernel) (t : Table) (name : String) : Option Chain :=
  (k.ruleset.chain? t name).map (·.chain)

/-- The set of a table, as first declared. -/
def set? (k : Kernel) (t : Table) (name : String) : Option MatchSet :=
  (k.ruleset.set? t name).map (·.set)

/-- The rules of a chain without what the ruleset filled in; none if there is no such chain. -/
def programs (k : Kernel) (t : Table) (chain : String) : List RuleData :=
  match k.ruleset.rules t chain with
  | .ok rules => rules.map RuleData.bare
  | .error _ => []

end Kernel
end Firewall
