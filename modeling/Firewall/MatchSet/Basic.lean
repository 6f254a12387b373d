import Firewall.CtState
import Firewall.Program.Op

namespace Firewall

structure Duration where
  seconds : Nat
  nanoseconds : Nat
  deriving DecidableEq, Repr

def Duration.ofSeconds (n : Nat) : Duration := ⟨n, 0⟩

structure SetFlags where
  anonymous : Bool
  constant : Bool
  dynamic : Bool
  timeout : Bool
  interval : Bool
  deriving DecidableEq, Repr

/-- A set without its elements. -/
structure MatchSet where
  table : Table
  /-- Empty for an anonymous set that is not declared yet. -/
  name : String
  id : Nat
  keyType : KeyType
  flags : SetFlags
  /-- The time after which elements expire by default. -/
  timeout : Option Duration
  deriving DecidableEq, Repr

/-- A member of a set: one key, or all keys up to `keyEnd`. -/
structure Element where
  key : List UInt8
  keyEnd : Option (List UInt8)
  timeout : Option Duration
  deriving DecidableEq, Repr

namespace Element

def single (key : List UInt8) : Element := ⟨key, none, none⟩

/-- The element of the keys from `first` to `last`; one key if they are equal. -/
def range (first last : List UInt8) : Element :=
  if first = last then single first else ⟨first, some last, none⟩

/-- The element with a time to expire. -/
def withTimeout (e : Element) (d : Duration) : Element := { e with timeout := some d }

/-- Whether two elements hold the same keys by their bounds; the timeout does not count. -/
def sameKey (a b : Element) : Bool := a.key == b.key && a.keyEnd == b.keyEnd

def contains (e : Element) (value : List UInt8) : Bool :=
  match e.keyEnd with
  | none => e.key == value
  | some last => Bytes.le e.key value && Bytes.le value last

def port? (bs : List UInt8) : Option UInt16 :=
  if bs.length = 2 then some (UInt16.ofNat (Bytes.toNat bs)) else none

/-- The first and last port of an element of ports. -/
def portBounds? (e : Element) : Option (UInt16 × UInt16) := do
  let first ← port? e.key
  match e.keyEnd with
  | none => some (first, first)
  | some last => (port? last).map fun l => (first, l)

end Element

namespace MatchSet

/-- A set without flags. -/
def ofKeyType (table : Table) (name : String) (keyType : KeyType) : MatchSet :=
  ⟨table, name, 0, keyType, ⟨false, false, false, false, false⟩, none⟩

/-- A set of the addresses of its table's family. -/
def addresses (table : Table) (name : String) : MatchSet :=
  ofKeyType table name table.family.keyType

/-- A constant set without a name; a transaction names it. -/
def anonymous (table : Table) (keyType : KeyType) : MatchSet :=
  { ofKeyType table "" keyType with flags := ⟨true, true, false, false, false⟩ }

def interval (s : MatchSet) : MatchSet := { s with flags := { s.flags with interval := true } }

/-- The set with elements added by rules. -/
def dynamic (s : MatchSet) : MatchSet := { s with flags := { s.flags with dynamic := true } }

/-- The set with elements that may expire. -/
def elementTimeouts (s : MatchSet) : MatchSet := { s with flags := { s.flags with timeout := true } }

/-- The set with elements that expire by default. -/
def withTimeout (s : MatchSet) (d : Duration) : MatchSet :=
  { s.elementTimeouts with timeout := some d }

def ref (s : MatchSet) : SetRef := ⟨s.name, s.id⟩

/-- Checks that an element has the width of the set's keys and only the features that its flags
allow. -/
def checkElement (s : MatchSet) (e : Element) : Except Error Unit :=
  let width := s.keyType.length
  if e.key.length ≠ width ∨ e.keyEnd.any (fun last => last.length ≠ width) then
    .error (.elementWidth s.name s.keyType)
  else if e.keyEnd.isSome ∧ !s.flags.interval then .error (.elementRange s.name)
  else if e.timeout.isSome ∧ !s.flags.timeout then .error (.elementTimeout s.name)
  else .ok ()

/-- Checks all elements; the first fault counts. -/
def checkElements (s : MatchSet) : List Element → Except Error Unit
  | [] => .ok ()
  | e :: es =>
    match s.checkElement e with
    | .ok () => s.checkElements es
    | .error fault => .error fault

end MatchSet
end Firewall
