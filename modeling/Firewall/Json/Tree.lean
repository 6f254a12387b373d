import Firewall.Json.Basic
import Firewall.Json.Token

namespace Firewall.Json

inductive Tree where
  | null
  | bool (value : Bool)
  | number (value : Option Number)
  | string (value : Option String)
  | array (items : List Tree)
  | object (members : List (Option String × Tree))
  deriving Inhabited, Repr

namespace Tree

/-- A container that is still open: what it holds so far in reverse order, and for an object the name
of the member whose value is read. -/
inductive Frame where
  | array (items : List Tree)
  | object (members : List (Option String × Tree)) (name : Option String)
  deriving Repr

/-- What the reader waits for. -/
inductive State where
  /-- A value. -/
  | value (stack : List Frame)
  /-- The first item of an array or its end. -/
  | firstItem (stack : List Frame)
  /-- The first member of an object or its end. -/
  | firstName (stack : List Frame)
  /-- The name of a further member. -/
  | nextName (members : List (Option String × Tree)) (stack : List Frame)
  /-- The colon behind a name. -/
  | colon (members : List (Option String × Tree)) (name : Option String) (stack : List Frame)
  /-- A comma or the end of the innermost container, behind a complete value. -/
  | complete (value : Tree) (stack : List Frame)
  deriving Repr

/-- Starts a value with its first token. -/
def State.start (stack : List Frame) : Token → Option State
  | .null => some (.complete .null stack)
  | .bool b => some (.complete (.bool b) stack)
  | .number n => some (.complete (.number n) stack)
  | .string s => some (.complete (.string s) stack)
  | .leftBracket => some (.firstItem stack)
  | .leftBrace => some (.firstName stack)
  | _ => none

/-- One token; `none` where the grammar does not allow it. -/
def State.step : State → Token → Option State
  | .value stack, t => State.start stack t
  | .firstItem stack, .rightBracket => some (.complete (.array []) stack)
  | .firstItem stack, t => State.start (.array [] :: stack) t
  | .firstName stack, .rightBrace => some (.complete (.object []) stack)
  | .firstName stack, .string s => some (.colon [] s stack)
  | .nextName members stack, .string s => some (.colon members s stack)
  | .colon members name stack, .colon => some (.value (.object members name :: stack))
  | .complete v (.array items :: stack), .comma => some (.value (.array (v :: items) :: stack))
  | .complete v (.array items :: stack), .rightBracket =>
    some (.complete (.array (v :: items).reverse) stack)
  | .complete v (.object members name :: stack), .comma =>
    some (.nextName ((name, v) :: members) stack)
  | .complete v (.object members name :: stack), .rightBrace =>
    some (.complete (.object ((name, v) :: members).reverse) stack)
  | _, _ => none

def State.run : State → List Token → Option State
  | s, [] => some s
  | s, t :: ts =>
    match s.step t with
    | some s => s.run ts
    | none => none

/-- The tree of a text that holds exactly one value. -/
def parse? (cs : List Char) : Option Tree := do
  let ts ← tokens? cs
  match ← (State.value []).run ts with
  | .complete v [] => some v
  | _ => none

mutual
/-- The value of a tree with at most `depth` containers inside one another; of members of one name
the last counts. -/
def value? (depth : Nat) : Tree → Option Json
  | .null => some .null
  | .bool b => some (.bool b)
  | .number n => n.map .number
  | .string s => s.map .string
  | .array xs =>
    match depth with
    | 0 => none
    | d + 1 => (values? d xs).map .array
  | .object ms =>
    match depth with
    | 0 => none
    | d + 1 => (memberValues? d ms).map fun vs => .object (orderMembers vs)
termination_by structural t => t
def values? (depth : Nat) : List Tree → Option (List Json)
  | [] => some []
  | x :: xs =>
    match value? depth x with
    | some v => (values? depth xs).map (v :: ·)
    | none => none
termination_by structural xs => xs
def memberValues? (depth : Nat) : List (Option String × Tree) → Option (List (String × Json))
  | [] => some []
  | (k, x) :: ms =>
    match k, value? depth x with
    | some k, some v => (memberValues? depth ms).map ((k, v) :: ·)
    | _, _ => none
termination_by structural ms => ms
end

mutual
/-- The tree of the text that writes a value. -/
def ofJson : Json → Tree
  | .null => .null
  | .bool b => .bool b
  | .number n => .number (some n)
  | .string s => .string (some s)
  | .array xs => .array (ofItems xs)
  | .object ms => .object (ofMembers ms)
termination_by structural j => j
def ofItems : List Json → List Tree
  | [] => []
  | x :: xs => ofJson x :: ofItems xs
termination_by structural xs => xs
def ofMembers : List (String × Json) → List (Option String × Tree)
  | [] => []
  | (k, v) :: ms => (some k, ofJson v) :: ofMembers ms
termination_by structural ms => ms
end

end Tree

/-- The greatest number of containers inside one another that a value may have. -/
def maxDepth : Nat := 127

def parse? (cs : List Char) : Option Json := do
  (← Tree.parse? cs).value? maxDepth

/-- The value of a JSON string. -/
def ofText? (s : String) : Option Json := parse? s.toList

end Firewall.Json
