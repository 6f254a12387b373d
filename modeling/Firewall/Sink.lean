import Firewall.Action
import Firewall.Rule

namespace Firewall

/-- A destination of batches, with states of type `σ`. It applies a batch as a whole or refuses it. -/
class Sink (σ : Type) where
  /-- Applies a batch. -/
  commit : Batch → Action σ Unit
  /-- The rules of a chain in the order of evaluation. -/
  rules : Table → String → Action σ (List RuleData)
  /-- The elements of a set. -/
  elements : MatchSet → Action σ (List Element)
  /-- Whether a table has a set of that name. -/
  hasSet : Table → String → σ → Bool × σ

end Firewall
