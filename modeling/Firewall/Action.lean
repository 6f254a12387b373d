import Firewall.Error

namespace Firewall

/-- A step on a state of type `σ` that results in a value or a failure. -/
def Action (σ α : Type) := σ → Except Error α × σ

namespace Action

def result (a : α) : Action σ α := fun s => (.ok a, s)

def fail (e : Error) : Action σ α := fun s => (.error e, s)

def andThen (x : Action σ α) (f : α → Action σ β) : Action σ β := fun s =>
  match x s with
  | (.ok a, s) => f a s
  | (.error e, s) => (.error e, s)

instance : Monad (Action σ) where
  pure := result
  bind := andThen

/-- A value or failure that does not depend on the state. -/
def ofExcept : Except Error α → Action σ α
  | .ok a => result a
  | .error e => fail e

def state : Action σ σ := fun s => (.ok s, s)

def change (f : σ → σ) : Action σ Unit := fun s => (.ok (), f s)

/-- An action on a part of the state. -/
def on (get : τ → σ) (set : τ → σ → τ) (a : Action σ α) : Action τ α := fun t =>
  match a (get t) with
  | (r, s) => (r, set t s)

/-- The value of an action that cannot fail. -/
def ofState (f : σ → α × σ) : Action σ α := fun s =>
  match f s with
  | (a, s) => (.ok a, s)

end Action
end Firewall
