import Firewall.Packet

namespace Firewall

/-- What a rule makes of a packet. -/
inductive Outcome where
  | noMatch
  | verdict (verdict : Verdict)
  /-- A NAT statement is reached. -/
  | nat
  deriving DecidableEq, Repr

abbrev Registers := Register → List UInt8

/-- Which keys the sets of a table hold. -/
abbrev Members := String → List UInt8 → Bool

namespace Registers

def empty : Registers := fun _ => []

def set (r : Registers) (reg : Register) (value : List UInt8) : Registers :=
  fun q => if q = reg then value else r q

end Registers

/-- A run goes on with the registers or ends. -/
inductive Step where
  | next (registers : Registers)
  | done (outcome : Outcome)

/-- Goes on if a test succeeds. -/
def Step.guard (passed : Bool) (r : Registers) : Step := if passed then .next r else .done .noMatch

/-- The bits of a value that a mask keeps, flipped where `xor` has ones. -/
def maskBytes (value mask xor : List UInt8) : List UInt8 :=
  List.zipWith (fun v mx => (v &&& mx.1) ^^^ mx.2) value (mask.zip xor)

/-- One operation. A packet that is replayed never exceeds a rate. -/
def Op.step (members : Members) (p : Packet) (r : Registers) : Op → Step
  | .load field reg =>
    match p.field? field with
    | some value => .next (r.set reg value)
    | none => .done .noMatch
  | .bitwise source target _ mask xor => .next (r.set target (maskBytes (r source) mask xor))
  | .compare comparison reg data => .guard (comparison.holds (r reg) data) r
  | .lookup reg set invert => .guard (members set.name (r reg) != invert) r
  | .immediate reg data => .next (r.set reg data)
  | .limit rate => .guard (!rate.beyond) r
  | .counter => .next r
  | .nat _ _ _ _ => .done .nat
  | .verdict v => .done (.verdict v)

/-- Runs the operations in order; a program without an end does not match. -/
def Program.run (members : Members) (p : Packet) (r : Registers) : Program → Outcome
  | [] => .noMatch
  | op :: ops =>
    match op.step members p r with
    | .next r => Program.run members p r ops
    | .done outcome => outcome

/-- What a program makes of a packet; one that mixes families matches nothing. -/
def Program.evaluate (members : Members) (p : Packet) (program : Program) : Outcome :=
  if p.wellFormed then program.run members p .empty else .noMatch

end Firewall
