import Firewall.Program.Machine
import Firewall.Rule

namespace Firewall

structure InstalledSet where
  set : MatchSet
  elements : List Element
  deriving DecidableEq, Repr

/-- An installed chain with its rules in the order of evaluation. -/
structure InstalledChain where
  chain : Chain
  rules : List RuleData
  deriving DecidableEq, Repr

/-- An installed table; chains in the order of their declaration, sets by name. -/
structure InstalledTable where
  table : Table
  chains : List InstalledChain
  sets : List InstalledSet
  deriving DecidableEq, Repr

/-- The installed tables in order, and the greatest handle given to a rule so far. -/
structure Ruleset where
  tables : List InstalledTable
  lastHandle : Nat
  deriving DecidableEq, Repr

/-- Changes the first entry that satisfies `p`; `missing` says that there is none. -/
def changeFirst (p : α → Bool) (missing : ε) (f : α → Except ε α) : List α → Except ε (List α)
  | [] => .error missing
  | a :: as =>
    if p a then
      match f a with
      | .ok b => .ok (b :: as)
      | .error e => .error e
    else
      match changeFirst p missing f as with
      | .ok bs => .ok (a :: bs)
      | .error e => .error e

/-- Adds those elements whose keys are not there yet, in order. -/
def addElements (current : List Element) : List Element → List Element
  | [] => current
  | e :: es => addElements (if current.any e.sameKey then current else current ++ [e]) es

def removeElements (current gone : List Element) : List Element :=
  current.filter fun e => !gone.any fun d => d.sameKey e

namespace InstalledTable

def set? (t : InstalledTable) (name : String) : Option InstalledSet :=
  t.sets.find? fun s => s.set.name = name

def chain? (t : InstalledTable) (name : String) : Option InstalledChain :=
  t.chains.find? fun c => c.chain.name = name

/-- Declares a chain; one of that name keeps its rules. -/
def addChain (t : InstalledTable) (chain : Chain) : InstalledTable :=
  match changeFirst (fun c => c.chain.name = chain.name) ()
      (fun c => .ok { c with chain }) t.chains with
  | .ok chains => { t with chains }
  | .error () => { t with chains := t.chains ++ [⟨chain, []⟩] }

/-- Adds a set to sets ordered by name, or elements to the set of that name, which keeps its
properties. -/
def addSet (set : MatchSet) (elements : List Element) :
    List InstalledSet → Except Rejection (List InstalledSet)
  | [] => .ok [⟨set, addElements [] elements⟩]
  | s :: ss =>
    if s.set.name = set.name then
      if s.set.keyType = set.keyType then
        .ok ({ s with elements := addElements s.elements elements } :: ss)
      else .error (.keyTypeTaken set.name s.set.keyType)
    else if set.name < s.set.name then .ok (⟨set, addElements [] elements⟩ :: s :: ss)
    else
      match addSet set elements ss with
      | .ok ss => .ok (s :: ss)
      | .error cause => .error cause

def changeElements (t : InstalledTable) (name : String) (f : List Element → List Element) :
    Except Rejection InstalledTable :=
  match changeFirst (fun s => s.set.name = name) (.noSet name)
      (fun s => .ok { s with elements := f s.elements }) t.sets with
  | .ok sets => .ok { t with sets }
  | .error cause => .error cause

def changeRules (t : InstalledTable) (name : String)
    (f : List RuleData → Except Rejection (List RuleData)) : Except Rejection InstalledTable :=
  match changeFirst (fun c => c.chain.name = name) (.noChain name)
      (fun c => match f c.rules with
        | .ok rules => .ok { c with rules }
        | .error cause => .error cause) t.chains with
  | .ok chains => .ok { t with chains }
  | .error cause => .error cause

/-- The first of the sets that a table does not hold. -/
def missingSet? (t : InstalledTable) (sets : List SetRef) : Option SetRef :=
  sets.find? fun s => (t.set? s.name).isNone

end InstalledTable

/-- Inserts a rule in front of the one with that handle. -/
def insertBefore (handle : Nat) (rule : RuleData) : List RuleData → Except Rejection (List RuleData)
  | [] => .error (.noRule handle)
  | r :: rs =>
    if r.handle = some handle then .ok (rule :: r :: rs)
    else
      match insertBefore handle rule rs with
      | .ok rs => .ok (r :: rs)
      | .error cause => .error cause

/-- Removes the rules with that handle, of which there has to be one. -/
def deleteHandle (handle : Nat) (rules : List RuleData) : Except Rejection (List RuleData) :=
  let left := rules.filter fun r => r.handle != some handle
  if left.length = rules.length then .error (.noRule handle) else .ok left

namespace Ruleset

def empty : Ruleset := ⟨[], 0⟩

def table? (r : Ruleset) (t : Table) : Option InstalledTable :=
  r.tables.find? fun i => i.table = t

def chain? (r : Ruleset) (t : Table) (name : String) : Option InstalledChain :=
  (r.table? t).bind fun i => i.chain? name

def set? (r : Ruleset) (t : Table) (name : String) : Option InstalledSet :=
  (r.table? t).bind fun i => i.set? name

/-- Which keys the sets of a table hold. -/
def members (r : Ruleset) (t : Table) : Members := fun name key =>
  (r.set? t name).any fun s => s.elements.any fun e => e.contains key

/-- Adds a table to tables in order, if it is not there yet. -/
def addTable (t : Table) : List InstalledTable → List InstalledTable
  | [] => [⟨t, [], []⟩]
  | i :: is =>
    if i.table = t then i :: is
    else if t.before i.table then ⟨t, [], []⟩ :: i :: is
    else i :: addTable t is

def changeTable (r : Ruleset) (t : Table)
    (f : InstalledTable → Except Rejection InstalledTable) : Except Rejection Ruleset :=
  match changeFirst (fun i => i.table = t) (.noTable t) f r.tables with
  | .ok tables => .ok { r with tables }
  | .error cause => .error cause

/-- Puts a rule with the next handle into its chain. -/
def placeRule (r : Ruleset) (rule : Rule)
    (put : RuleData → List RuleData → Except Rejection (List RuleData)) :
    Except Rejection Ruleset :=
  let handle := r.lastHandle + 1
  let data := { rule.data with handle := some handle, position := none }
  let placed := r.changeTable rule.table fun t =>
    match t.missingSet? rule.data.program.sets with
    | some set => .error (.noSet set.name)
    | none => t.changeRules rule.chain (put data)
  match placed with
  | .ok r => .ok { r with lastHandle := handle }
  | .error cause => .error cause

def apply (r : Ruleset) : Declaration → Except Rejection Ruleset
  | .flushRuleset => .ok { r with tables := [] }
  | .addTable t => .ok { r with tables := addTable t r.tables }
  | .addChain chain => r.changeTable chain.table fun t => .ok (t.addChain chain)
  | .addSet set elements => r.changeTable set.table fun t =>
    match InstalledTable.addSet set elements t.sets with
    | .ok sets => .ok { t with sets }
    | .error cause => .error cause
  | .addElements set elements => r.changeTable set.table fun t =>
    t.changeElements set.name fun current => addElements current elements
  | .deleteElements set elements => r.changeTable set.table fun t =>
    t.changeElements set.name fun current => removeElements current elements
  | .addRule rule => r.placeRule rule fun data rules => .ok (rules ++ [data])
  | .insertRule rule none => r.placeRule rule fun data rules => .ok (data :: rules)
  | .insertRule rule (some handle) => r.placeRule rule (insertBefore handle)
  | .deleteRule table chain handle => r.changeTable table fun t =>
    t.changeRules chain (deleteHandle handle)

/-- Declarations in order, counted from `index`; the number of the one that is refused. -/
def applyAll (r : Ruleset) (index : Nat) : Batch → Except (Nat × Rejection) Ruleset
  | [] => .ok r
  | d :: ds =>
    match r.apply d with
    | .ok r => applyAll r (index + 1) ds
    | .error cause => .error (index, cause)

/-- The rules of a chain, each with its position. -/
def rules (r : Ruleset) (t : Table) (name : String) : Except Error (List RuleData) :=
  match r.chain? t name with
  | some c => .ok (c.rules.mapIdx fun i data => { data with position := some i })
  | none => .error (.rejected (.noChain name))

end Ruleset
end Firewall
