import Firewall.Table

namespace Firewall

/-- The points at which packets enter base chains. -/
inductive Hook where
  | prerouting
  | input
  | forward
  | output
  | postrouting
  deriving DecidableEq, Repr

namespace Hook

def all : List Hook := [.prerouting, .input, .forward, .output, .postrouting]

def name : Hook → String
  | .prerouting => "prerouting"
  | .input => "input"
  | .forward => "forward"
  | .output => "output"
  | .postrouting => "postrouting"

def ofName? (s : String) : Option Hook := all.find? fun h => h.name = s

end Hook

inductive ChainType where
  | filter
  | nat
  | route
  deriving DecidableEq, Repr

namespace ChainType

def all : List ChainType := [.filter, .nat, .route]

def name : ChainType → String
  | .filter => "filter"
  | .nat => "nat"
  | .route => "route"

def ofName? (s : String) : Option ChainType := all.find? fun t => t.name = s

end ChainType

/-- What a base chain does with a packet that no rule decides. -/
inductive Policy where
  | accept
  | drop
  deriving DecidableEq, Repr

namespace Policy

def name : Policy → String
  | .accept => "accept"
  | .drop => "drop"

def ofName? (s : String) : Option Policy := [Policy.accept, .drop].find? fun p => p.name = s

end Policy

/-- Where a base chain hangs. -/
structure BaseChain where
  hook : Hook
  chainType : ChainType
  priority : Int
  policy : Policy
  deriving DecidableEq, Repr

structure Chain where
  table : Table
  name : String
  base : Option BaseChain
  deriving DecidableEq, Repr

namespace Chain

/-- A filter chain, named after its hook. -/
def filter (table : Table) (hook : Hook) (policy : Policy) : Chain :=
  ⟨table, hook.name, some ⟨hook, .filter, 0, policy⟩⟩

/-- A NAT chain, named after its hook. Destination NAT comes before the filter chains and source NAT
behind them; such a chain accepts by default. -/
def nat (table : Table) (hook : Hook) : Chain :=
  let priority : Int := match hook with
    | .prerouting => -100
    | .output => -100
    | .input => 100
    | .forward => 100
    | .postrouting => 100
  ⟨table, hook.name, some ⟨hook, .nat, priority, .accept⟩⟩

/-- A chain that is only entered by jumps. -/
def regular (table : Table) (name : String) : Chain := ⟨table, name, none⟩

def policy? (c : Chain) : Option Policy := c.base.map (·.policy)

end Chain
end Firewall
