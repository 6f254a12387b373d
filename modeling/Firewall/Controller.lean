import Firewall.Discovery
import Firewall.Policy.Rules

namespace Firewall

/-- The sets of addresses that can be changed. -/
inductive AddressSet where
  | trusted
  | manager
  | forward
  | blacklist
  deriving DecidableEq, Repr

namespace AddressSet

def all : List AddressSet := [.trusted, .manager, .forward, .blacklist]

def name : AddressSet → String
  | .trusted => "trusted"
  | .manager => "manager"
  | .forward => "forward"
  | .blacklist => "blacklist"

def ofName? (s : String) : Option AddressSet := all.find? fun a => a.name = s

def set (a : AddressSet) (l : Layout) : MatchSet :=
  match a with
  | .trusted => l.trusted
  | .manager => l.manager
  | .forward => l.forwarded
  | .blacklist => l.blacklist

end AddressSet

/-- A firewall over a sink. -/
structure Controller (σ : Type) where
  config : Config
  host : Discovery.Host
  outsideInterface : String
  outsideAddress : Address
  /-- The layout of the configuration. -/
  template : Layout
  /-- The layout that is declared. -/
  layout : Layout
  applied : Bool
  sink : σ

namespace Controller

/-- A controller for a valid configuration of a host whose outside interface is known. Nothing is
installed yet. -/
def start (config : Config) (sink : σ) (host : Discovery.Host) : Except Error (Controller σ) :=
  match config.validate with
  | .error e => .error e
  | .ok () =>
    match host.defaultRoute config.family with
    | .error e => .error e
    | .ok (outsideInterface, outsideAddress) =>
      let template := Layout.ofConfig config
      .ok ⟨config, host, outsideInterface, outsideAddress, template, template, false, sink⟩

/-- Checks addresses of a family for a set; the first fault counts. -/
def checkSpecs (which : AddressSet) (family : Family) (specs : List String) : Except Error Unit :=
  Config.checkEach which.name (fun spec => Input.addressSpec spec family) specs

variable {σ : Type} [Sink σ]

def inNamespace (a : Action (Controller σ) α) : Action (Controller σ) α := fun c =>
  Namespace.run c.host.namespaces c.config.networkNamespace a c

def transact (a : Action (Pending σ) α) : Action (Controller σ) α :=
  a.on (fun c => Pending.begin c.sink) fun c p => { c with sink := p.sink }

def onSink (a : Action σ α) : Action (Controller σ) α :=
  a.on (·.sink) fun c sink => { c with sink }

/-- The compiler of rules for a declared layout. -/
def compiler (c : Controller σ) (layout : Layout) : Compiler :=
  ⟨c.config, layout, c.outsideInterface, c.outsideAddress⟩

/-- Declares a layout, adds its rules and flushes. -/
def install (declare : Action (Pending σ) Layout)
    (plan : Layout → Except Error (List PlannedRule)) : Action (Pending σ) Layout := do
  let layout ← declare
  Compiler.queue (← .ofExcept (plan layout))
  Pending.flush
  return layout

/-- Installs the whole policy in place of the ruleset. -/
def apply : Action (Controller σ) Unit := fun c =>
  if !c.config.enabled then (.ok (), c)
  else
    (inNamespace do
      let layout ← transact
        (install (c.template.declareAll c.config) fun l => (c.compiler l).baseline)
      .change fun c => { c with layout, applied := true }) c

/-- Removes elements from a set of addresses and adds others, in one batch. -/
def updateSet (which : AddressSet) (remove add : List String) : Action (Controller σ) Unit :=
  fun c =>
    if !c.applied then (.ok (), c)
    else
      match checkSpecs which c.config.family add with
      | .error e => (.error e, c)
      | .ok () =>
        let set := which.set c.layout
        (inNamespace do
          let remove ← .ofExcept (set.elementsOfSpecs remove)
          let add ← .ofExcept (set.elementsOfSpecs add)
          transact do
            Pending.deleteElements set remove
            Pending.addElements set add
            Pending.flush) c

/-- Drops what comes from the given sources, for a time or until they are taken off the blacklist. -/
def ban (specs : List String) (timeout : Option Duration) : Action (Controller σ) Unit := fun c =>
  if !c.applied then (.ok (), c)
  else
    match checkSpecs .blacklist c.config.family specs with
    | .error e => (.error e, c)
    | .ok () =>
      let set := c.layout.blacklist
      (inNamespace do
        let elements ← .ofExcept (set.elementsOfSpecs specs)
        let elements := match timeout with
          | some d => elements.map fun e => e.withTimeout d
          | none => elements
        transact do
          Pending.addElements set elements
          Pending.flush) c

def unban (specs : List String) : Action (Controller σ) Unit := updateSet .blacklist specs []

/-- The elements of a set, none if they cannot be read. -/
def elementsOrNone (set : MatchSet) : Action (Controller σ) (List Element) := fun c =>
  match onSink (Sink.elements set) c with
  | (.ok es, c) => (.ok es, c)
  | (.error _, c) => (.ok [], c)

/-- Replaces the ruleset by a reduced policy that keeps the trusted sources and their access. -/
def cleanup : Action (Controller σ) Unit := fun c =>
  if !c.config.enabled then (.ok (), c)
  else
    (inNamespace do
      let trusted ← elementsOrNone c.layout.trusted
      let layout ← transact
        (install (c.template.declareReduced c.config trusted) fun l => (c.compiler l).cleanup)
      .change fun c => { c with layout, applied := false }) c

def run (a : Layout → Action (Pending σ) α) : Action (Controller σ) α :=
  inNamespace fun c => transact (a c.layout) c

/-- Takes over a policy that is installed already: one whose table has the sets of trusted sources and
of managers. Returns whether there is one. -/
def attach : Action (Controller σ) Bool := fun c =>
  if c.applied then (.ok true, c)
  else
    (inNamespace do
      let hasTrusted ← onSink (.ofState (Sink.hasSet c.template.filter Layout.trustedName))
      let present ←
        if hasTrusted then onSink (.ofState (Sink.hasSet c.template.filter Layout.managerName))
        else pure false
      if present then
        Action.change fun c => { c with layout := c.template, applied := true }
      return present) c

def rules (chain : String) : Action (Controller σ) (List RuleData) :=
  inNamespace fun c => onSink (Sink.rules c.layout.filter chain) c

def members (which : AddressSet) : Action (Controller σ) (List String) :=
  inNamespace do
    let c ← .state
    let set := which.set c.layout
    let es ← onSink (Sink.elements set)
    return es.map fun e => e.spec set.keyType

/-- The addresses of the family on the configured interfaces other than the outside and the overlay
interface. -/
def interfaceAddresses (c : Controller σ) : Except Error (List Address) :=
  let names := c.config.interfaces.filter fun i =>
    i != c.outsideInterface && i != c.config.overlayInterface
  (Spec.readAll c.host.addresses names).map fun found =>
    found.flatten.filter fun a => a.family = c.config.family

end Controller
end Firewall
