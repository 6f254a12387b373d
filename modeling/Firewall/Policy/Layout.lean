import Firewall.Config.Basic
import Firewall.MatchSet.Spec
import Firewall.Transaction

namespace Firewall

/-- The tables, chains and sets of the policy. As a configuration gives them, sets have no ids and anonymous sets no
names; declaring them returns the layout that rules refer to. -/
structure Layout where
  filter : Table
  nat : Table
  input : Chain
  forward : Chain
  output : Chain
  postrouting : Chain
  trusted : MatchSet
  manager : MatchSet
  forwarded : MatchSet
  blacklist : MatchSet
  trustedPorts : MatchSet
  managerPorts : MatchSet
  httpPorts : MatchSet
  smtpPorts : MatchSet
  deriving DecidableEq, Repr

namespace Layout

def trustedName : String := "trust_ipset"

def managerName : String := "manager_ipset"

def ofConfig (c : Config) : Layout :=
  let filter := c.filterTable
  let nat := c.natTable
  { filter, nat
    input := .filter filter .input c.defaultPolicy
    forward := .filter filter .forward c.defaultPolicy
    output := .filter filter .output c.defaultPolicy
    postrouting := .nat nat .postrouting
    trusted := (MatchSet.addresses filter trustedName).interval
    manager := (MatchSet.addresses filter managerName).interval
    forwarded := (MatchSet.addresses filter "forward_ipset").interval
    blacklist := (MatchSet.addresses filter "blacklist_ipset").interval.elementTimeouts
    trustedPorts := (MatchSet.ofKeyType filter "trust_ports" .inetService).interval
    managerPorts := (MatchSet.ofKeyType filter "manager_ports" .inetService).interval
    httpPorts := .anonymous filter .inetService
    smtpPorts := .anonymous filter .inetService }

def httpSpecs : List String := ["80", "443"]

/-- The ports on which mail is handed in. -/
def smtpSpecs : List String := ["25", "465", "587"]

variable {σ : Type} [Sink σ]

def declareSpecs (set : MatchSet) (specs : List String) : Action (Pending σ) MatchSet := do
  let elements ← .ofExcept (set.elementsOfSpecs specs)
  Pending.addSet set elements

/-- Declares a set of ports if its service is wanted. -/
def declareService (wanted : Bool) (set : MatchSet) (specs : List String) :
    Action (Pending σ) MatchSet :=
  if wanted then declareSpecs set specs else pure set

/-- Declares the filter table with its chains, the trusted sources, and the sets of ports that rules of
the outside interfaces use. -/
def declareFilter (l : Layout) (c : Config) (trusted : List Element) :
    Action (Pending σ) Layout := do
  Pending.collect fun t =>
    (((t.addTable l.filter).addChain l.input).addChain l.forward).addChain l.output
  let trustedSet ← Pending.addSet l.trusted trusted
  let trustedPorts ← declareSpecs l.trustedPorts c.trustedPorts
  let httpPorts ← declareService c.services.http l.httpPorts httpSpecs
  let smtpPorts ← declareService c.services.smtp l.smtpPorts smtpSpecs
  return { l with trusted := trustedSet, trustedPorts, httpPorts, smtpPorts }

/-- Replaces the ruleset by all tables, chains and sets of the policy. Sets of addresses start
empty. -/
def declareAll (l : Layout) (c : Config) : Action (Pending σ) Layout := do
  Pending.collect Transaction.flushRuleset
  let declared ← l.declareFilter c []
  let manager ← Pending.addSet l.manager []
  let forwarded ← Pending.addSet l.forwarded []
  let blacklist ← Pending.addSet l.blacklist []
  let managerPorts ← declareSpecs l.managerPorts c.managerPorts
  Pending.collect fun t => (t.addTable l.nat).addChain l.postrouting
  return { declared with manager, forwarded, blacklist, managerPorts }

/-- Replaces the ruleset by what is left after a cleanup: the filter table with the given trusted
sources. -/
def declareReduced (l : Layout) (c : Config) (trusted : List Element) :
    Action (Pending σ) Layout := do
  Pending.collect Transaction.flushRuleset
  l.declareFilter c trusted

end Layout
end Firewall
