import Firewall.Bytes
import Firewall.Error

namespace Firewall

/-- A non-empty set of connection states. -/
structure CtState where
  bits : UInt32
  nonempty : bits ≠ 0
  defined : bits &&& ~~~Error.definedCtBits = 0
  deriving DecidableEq, Repr

namespace CtState

/-- The bits and names of the states, in the order in which they are listed. -/
def states : List (UInt32 × String) :=
  [(1, "invalid"), (2, "established"), (4, "related"), (8, "new"), (64, "untracked")]

def ofMask (mask : UInt32) : Except Error CtState :=
  if empty : mask = 0 then .error .ctStateEmpty
  else if known : mask &&& ~~~Error.definedCtBits = 0 then .ok ⟨mask, empty, known⟩
  else .error (.ctStateUndefined mask)

theorem or_defined (a b : CtState) : (a.bits ||| b.bits) &&& ~~~Error.definedCtBits = 0 := by
  have h : (a.bits ||| b.bits) &&& ~~~Error.definedCtBits =
      (a.bits &&& ~~~Error.definedCtBits) ||| (b.bits &&& ~~~Error.definedCtBits) := by
    apply UInt32.toBitVec_inj.1
    ext i hi
    simp [Bool.and_or_distrib_right]
  rw [h, a.defined, b.defined]
  rfl

def union (a b : CtState) : CtState :=
  ⟨a.bits ||| b.bits, fun h => a.nonempty (UInt32.or_eq_zero_iff.1 h).1, or_defined a b⟩

/-- Whether every state of `b` is in `a`. -/
def includes (a b : CtState) : Bool := a.bits &&& b.bits == b.bits

def names (s : CtState) : List String :=
  (states.filter fun (bit, _) => s.bits &&& bit != 0).map (·.2)

def text (s : CtState) : String := ",".intercalate s.names

def ofName (name : String) : Except Error CtState :=
  match states.find? fun (_, n) => n = name with
  | some (bit, _) =>
    match ofMask bit with
    | .ok s => .ok s
    | .error _ => .error (.ctStateUnknown name)
  | none => .error (.ctStateUnknown name)

/-- The register form of a set of states. -/
def bytes (s : CtState) : List UInt8 := Bytes.ofNatHost 4 s.bits.toNat

/-- The set of states with a register form. -/
def ofBytes? (bs : List UInt8) : Option CtState :=
  if bs.length = 4 then (ofMask (UInt32.ofNat (Bytes.toNatHost bs))).toOption else none

def new : CtState := ⟨8, by decide, by decide⟩

def established : CtState := ⟨2, by decide, by decide⟩

def newEstablished : CtState := ⟨10, by decide, by decide⟩

def establishedRelated : CtState := ⟨6, by decide, by decide⟩

end CtState

def ctStateLength : UInt32 := 4

end Firewall
