import Firewall.Audit.Timestamp
import Firewall.Audit.Uuid
import Firewall.Json.Decode

namespace Firewall.Audit

inductive Operation where
  | apply
  | cleanup
  | updateSet
  | ban
  | unban
  deriving DecidableEq, Repr

def Operation.name : Operation → String
  | .apply => "apply"
  | .cleanup => "cleanup"
  | .updateSet => "update_set"
  | .ban => "ban"
  | .unban => "unban"

def Operation.named : List (String × Operation) :=
  [.apply, .cleanup, .updateSet, .ban, .unban].map fun o => (o.name, o)

/-- An entry of the log. -/
structure Event where
  id : Uuid
  timestamp : Timestamp
  operation : Operation
  success : Bool
  /-- What the operation was about. -/
  details : Json
  /-- Why the operation failed. -/
  error : Option String
  deriving Repr

namespace Event

/-- The members of an event in the order in which they are written. -/
def fieldNames : List String := ["id", "timestamp", "event_type", "success", "details", "error"]

/-- The greatest number of containers inside one another that the details may have, as members of an
event. -/
def maxDetailsDepth : Nat := Json.maxDepth - 1

def toJson (e : Event) : Json :=
  .object [
    ("id", .string e.id.text),
    ("timestamp", .string e.timestamp.text),
    ("event_type", .string e.operation.name),
    ("success", .bool e.success),
    ("details", e.details),
    ("error", .option .string e.error)]

def ofTree? (t : Json.Tree) : Option Event := do
  let f ← t.record? fieldNames
  return {
    id := ← (← f.get? "id" Json.Tree.string?) |> fun s => Uuid.parse? s.toList
    timestamp := ← (← f.get? "timestamp" Json.Tree.string?) |> fun s => Timestamp.parse? s.toList
    operation := ← f.get? "event_type" (Json.Tree.choice? Operation.named)
    success := ← f.get? "success" Json.Tree.bool?
    details := ← f.get? "details" (Json.Tree.value? maxDetailsDepth)
    error := ← f.getOption? "error" Json.Tree.string? }

/-- The event of a line of the log. -/
def ofLine? (line : List Char) : Option Event := (Json.Tree.parse? line).bind ofTree?

end Event

def append (log : String) (e : Event) : String := log ++ e.toJson.text ++ "\n"

/-- The last `count` events of a log's text, the latest first. -/
def recent (count : Nat) (log : String) : List Event :=
  ((Text.lines log.toList).reverse.filterMap Event.ofLine?).take count

end Firewall.Audit
