import Firewall.Chain
import Firewall.MatchSet.Basic

namespace Firewall

/-- A program with what identifies its rule. Handle and position are filled in when a rule is read back. -/
structure RuleData where
  id : Option String
  program : Program
  handle : Option Nat
  position : Option Nat
  deriving DecidableEq, Repr

namespace RuleData

def named (id : String) (program : Program) : RuleData := ⟨some id, program, none, none⟩

def unnamed (program : Program) : RuleData := ⟨none, program, none, none⟩

/-- A rule without what the ruleset filled in. -/
def bare (r : RuleData) : RuleData := { r with handle := none, position := none }

end RuleData

structure Rule where
  table : Table
  chain : String
  data : RuleData
  deriving DecidableEq, Repr

/-- One change of a ruleset. -/
inductive Declaration where
  /-- Removes every table. -/
  | flushRuleset
  | addTable (table : Table)
  | addChain (chain : Chain)
  | addSet (set : MatchSet) (elements : List Element)
  | addElements (set : MatchSet) (elements : List Element)
  | deleteElements (set : MatchSet) (elements : List Element)
  | addRule (rule : Rule)
  /-- Inserts a rule in front of the one with that handle, or of all rules. -/
  | insertRule (rule : Rule) (before : Option Nat)
  | deleteRule (table : Table) (chain : String) (handle : Nat)
  deriving DecidableEq, Repr

/-- Declarations that take effect together or not at all. -/
abbrev Batch := List Declaration

end Firewall
