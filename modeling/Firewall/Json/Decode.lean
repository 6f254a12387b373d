import Firewall.Json.Tree

namespace Firewall.Json.Tree

def bool? : Tree → Option Bool
  | .bool b => some b
  | _ => none

def string? : Tree → Option String
  | .string s => s
  | _ => none

def int? (low high : Int) : Tree → Option Int
  | .number (some (.int i)) => if low ≤ i ∧ i ≤ high then some i else none
  | _ => none

def nat? (bits : Nat) (t : Tree) : Option Nat := (t.int? 0 (Nat.pow 2 bits - 1)).map Int.toNat

def list? (read : Tree → Option α) : Tree → Option (List α)
  | .array xs => xs.mapM read
  | _ => none

def option? (read : Tree → Option α) : Tree → Option (Option α)
  | .null => some none
  | t => (read t).map some

def bytes? : Tree → Option (List UInt8) := list? fun t => (t.nat? 8).map UInt8.ofNat

/-- The members of an object, if every name has a value. -/
def names? : List (Option String × Tree) → Option (List (String × Tree))
  | [] => some []
  | (some k, t) :: ms => (names? ms).map ((k, t) :: ·)
  | (none, _) :: _ => none

/-- The values that a record has for its fields. -/
structure Fields where
  values : List (String × Tree)

def Fields.find? (f : Fields) (name : String) : Option Tree :=
  (f.values.find? fun v => v.1 = name).map (·.2)

def Fields.get? (f : Fields) (name : String) (read : Tree → Option α) : Option α :=
  (f.find? name).bind read

/-- A field with a value for the case that it is not there. -/
def Fields.getD? (f : Fields) (name : String) (read : Tree → Option α) (default : α) : Option α :=
  match f.find? name with
  | none => some default
  | some t => read t

/-- A field that may be null or not be there. -/
def Fields.getOption? (f : Fields) (name : String) (read : Tree → Option α) : Option (Option α) :=
  f.getD? name (option? read) none

/-- The fields of a record with the given names. An array has a value for each of them, or for the
first ones if `short`. -/
def fields? (names : List String) (short : Bool) : Tree → Option Fields
  | .object ms => do
    let known := (← names? ms).filter fun m => names.contains m.1
    if (known.map (·.1)).Nodup then some ⟨known⟩ else none
  | .array xs =>
    if xs.length = names.length ∨ (short ∧ xs.length ≤ names.length) then some ⟨names.zip xs⟩
    else none
  | _ => none

/-- A record whose fields all have to be written in an array. -/
def record? (names : List String) (t : Tree) : Option Fields := t.fields? names false

/-- A record whose fields are named where they are written, as the fields of an alternative are. -/
def namedRecord? (names : List String) : Tree → Option Fields
  | .object ms => record? names (.object ms)
  | _ => none

/-- The name of an alternative and what is written with it. -/
def variant? : Tree → Option (String × Option Tree)
  | .string (some s) => some (s, none)
  | .object [(some k, t)] => some (k, some t)
  | _ => none

/-- The name of an alternative that has no content. -/
def unit? (t : Tree) : Option String :=
  match t.variant? with
  | some (name, none) => some name
  | some (name, some .null) => some name
  | _ => none

/-- One of the alternatives that have no content, each with its name. -/
def choice? (options : List (String × α)) (t : Tree) : Option α := do
  let name ← t.unit?
  (options.find? fun o => o.1 = name).map (·.2)

end Firewall.Json.Tree
