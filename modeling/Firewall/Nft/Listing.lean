import Firewall.Json.Basic
import Firewall.MatchSet.Spec
import Firewall.Rule

namespace Firewall.Nft

def networkSpec? (network : Json) : Option String := do
  let address ← (← network.get? "addr").string?
  let length ← (← network.get? "len").nat?
  return address ++ "/" ++ decimalText length

mutual
/-- The text of an element as users write it: a key, a network, a range, or one of these with a
timeout. -/
def elementSpec? : Json → Option String
  | .string s => some s
  | .number n => some (String.ofList n.text)
  | .object ms =>
    match Json.findMember? "prefix" ms with
    | some network => networkSpec? network
    | none => (rangeSpec? ms).getD (timedSpec? ms)
  | _ => none
termination_by structural j => j
/-- The text of a member `range` that is an array; the inner `none` is one without two bounds. -/
def rangeSpec? : List (String × Json) → Option (Option String)
  | [] => none
  | (k, v) :: ms =>
    if k = "range" then
      match v with
      | .array (low :: high :: _) =>
        match elementSpec? low, elementSpec? high with
        | some low, some high => some (some (low ++ "-" ++ high))
        | _, _ => some none
      | .array _ => some none
      | _ => none
    else rangeSpec? ms
termination_by structural ms => ms
/-- The text of what a member `elem` holds. -/
def timedSpec? : List (String × Json) → Option String
  | [] => none
  | (k, v) :: ms =>
    if k = "elem" then
      match v with
      | .object inner => valueSpec? inner
      | _ => none
    else timedSpec? ms
termination_by structural ms => ms
def valueSpec? : List (String × Json) → Option String
  | [] => none
  | (k, v) :: ms => if k = "val" then elementSpec? v else valueSpec? ms
termination_by structural ms => ms
end

def objects (j : Json) : List Json := ((j.get? "nftables").bind Json.items?).getD []

/-- The elements that a listing shows for its first set. -/
def listedElements (set : MatchSet) (j : Json) : Except Error (List Element) :=
  let first := (objects j).findSome? (·.get? "set")
  let items := ((first.bind (·.get? "elem")).bind Json.items?).getD []
  set.elementsOfSpecs (items.filterMap elementSpec?)

/-- The rules that a listing shows, without their programs. -/
def listedRules (j : Json) : List RuleData :=
  ((objects j).filterMap (·.get? "rule")).mapIdx fun i rule =>
    { id := (rule.get? "comment").bind Json.string?
      program := []
      handle := (rule.get? "handle").bind Json.nat?
      position := some i }

end Firewall.Nft
