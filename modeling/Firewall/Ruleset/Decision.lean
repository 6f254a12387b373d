import Firewall.Program.Machine
import Firewall.Ruleset.Basic

namespace Firewall

/-- What is decided, and by which rule; no rule if the policy decided. -/
structure Decision where
  verdict : Verdict
  handle : Option Nat
  id : Option String
  deriving DecidableEq, Repr

def Decision.accepted (d : Decision) : Bool := d.verdict = .accept

def Decision.ofPolicy : Policy → Decision
  | .accept => ⟨.accept, none, none⟩
  | .drop => ⟨.drop, none, none⟩

/-- A chain decides or is left at its end or by a return. -/
inductive Walk where
  | decided (decision : Decision)
  | returned
  deriving DecidableEq, Repr

namespace Ruleset

/-- The number of chains that may be entered one inside the other. -/
def maxEntries : Nat := 17

/-- Follows the rules of a chain; `enter` follows another chain. -/
def walkRules (members : Members) (p : Packet) (enter : String → Except Error Walk) :
    List RuleData → Except Error Walk
  | [] => .ok .returned
  | rule :: rules =>
    match rule.program.evaluate members p with
    | .noMatch => walkRules members p enter rules
    | .nat => .ok (.decided ⟨.accept, rule.handle, rule.id⟩)
    | .verdict .cont => walkRules members p enter rules
    | .verdict .ret => .ok .returned
    | .verdict (.jump target) =>
      match enter target with
      | .ok (.decided d) => .ok (.decided d)
      | .ok .returned => walkRules members p enter rules
      | .error e => .error e
    | .verdict (.goto target) => enter target
    | .verdict v => .ok (.decided ⟨v, rule.handle, rule.id⟩)

/-- Follows a chain, entering at most `entries` chains one inside the other. -/
def walk (r : Ruleset) (t : Table) (p : Packet) : Nat → String → Except Error Walk
  | 0, chain => .error (.jumpDepth chain)
  | entries + 1, chain =>
    match r.rules t chain with
    | .ok rules => walkRules (r.members t) p (walk r t p entries) rules
    | .error e => .error e

/-- Decides a packet in a chain. A chain without a policy accepts. -/
def decidePacket (r : Ruleset) (t : Table) (chain : String) (p : Packet) : Except Error Decision :=
  if !p.wellFormed then .error (.packetMixed p.source p.destination)
  else
    match r.chain? t chain with
    | none => .error (.rejected (.noChain chain))
    | some c =>
      match r.walk t p maxEntries chain with
      | .ok (.decided d) => .ok d
      | .ok .returned => .ok (.ofPolicy (c.chain.policy?.getD .accept))
      | .error e => .error e

end Ruleset
end Firewall
