import Firewall.Rule

namespace Firewall.Program

/-- The loads that a family's layout gives a meaning: both addresses and the protocol. -/
def layoutLoads (p : Profile) : List (UInt32 × UInt32) :=
  [(p.sourceOffset, p.addressLength), (p.destinationOffset, p.addressLength),
   (p.protocolOffset, protocolLength)]

/-- Whether a load from the network header belongs to the other family's layout only. -/
def usesForeignLayout (family : Family) (offset length : UInt32) : Bool :=
  !(layoutLoads family.profile).contains (offset, length) &&
    (layoutLoads family.other.profile).contains (offset, length)

/-- What is known of a register: how many bytes it holds, and whether they have been read. -/
structure Slot where
  length : Nat
  read : Bool
  deriving DecidableEq, Repr

/-- What is known of each register; nothing before the first write. -/
abbrev Slots := Register → Option Slot

def Slots.set (s : Slots) (reg : Register) (slot : Slot) : Slots :=
  fun r => if r = reg then some slot else s r

/-- Writes `length` bytes to a register. -/
def Slots.write (s : Slots) (reg : Register) (length op : Nat) : Except ProgramFault Slots :=
  if (s reg).any (fun slot => !slot.read) then .error (.overwritten op reg.index)
  else if Register.width < length then .error (.tooWide op length)
  else .ok (s.set reg ⟨length, false⟩)

def Slots.read (s : Slots) (reg : Register) (op : Nat) : Except ProgramFault (Nat × Slots) :=
  match s reg with
  | some slot => .ok (slot.length, s.set reg ⟨slot.length, true⟩)
  | none => .error (.unwritten op reg.index)

def Slots.readAll (s : Slots) (op : Nat) : List Register → Except ProgramFault Slots
  | [] => .ok s
  | reg :: regs =>
    match s.read reg op with
    | .ok (_, s) => s.readAll op regs
    | .error fault => .error fault

/-- Follows one operation of a program in a table of the family. -/
def checkOp (family : Family) (pos : Nat) (s : Slots) : Op → Except ProgramFault Slots
  | .load (.payload .network offset length) reg =>
    if usesForeignLayout family offset length then .error (.foreignLayout offset length family)
    else s.write reg length.toNat pos
  | .load field reg => s.write reg field.length.toNat pos
  | .bitwise source target length mask xor =>
    match s.read source pos with
    | .ok (width, s) =>
      if length.toNat ≠ width ∨ mask.length ≠ length.toNat ∨ xor.length ≠ length.toNat then
        .error (.bitwiseWidth pos width)
      else s.write target length.toNat pos
    | .error fault => .error fault
  | .compare _ reg data =>
    match s.read reg pos with
    | .ok (width, s) =>
      if data.length ≠ width then .error (.compareWidth pos data.length width) else .ok s
    | .error fault => .error fault
  | .lookup reg _ _ =>
    match s.read reg pos with
    | .ok (_, s) => .ok s
    | .error fault => .error fault
  | .immediate reg data => s.write reg data.length pos
  | .nat _ natFamily address port =>
    if natFamily ≠ family then .error (.natFamily natFamily family)
    else s.readAll pos (address.toList ++ port.toList)
  | .limit _ => .ok s
  | .counter => .ok s
  | .verdict _ => .ok s

/-- Follows the operations from number `pos` on. -/
def checkOps (family : Family) (pos : Nat) (s : Slots) : Program → Except ProgramFault Slots
  | [] => .ok s
  | op :: ops =>
    match checkOp family pos s op with
    | .ok s => checkOps family (pos + 1) s ops
    | .error fault => .error fault

/-- The first register that holds bytes which nothing has read. -/
def Slots.unused? (s : Slots) : Option Register :=
  Register.all.find? fun reg => (s reg).any fun slot => !slot.read

/-- The first operation that ends a rule. -/
def firstTerminal? (p : Program) : Option Nat := p.findIdx? Op.isTerminal

def checkEnd (p : Program) : Except ProgramFault Unit :=
  match p.getLast? with
  | none => .error .empty
  | some last =>
    if !last.isTerminal then .error .noTerminal
    else match firstTerminal? p.dropLast with
      | some op => .error (.terminalInside op)
      | none => .ok ()

/-- Checks a program for a table of the family. -/
def check (family : Family) (p : Program) : Except ProgramFault Unit :=
  match checkEnd p with
  | .error fault => .error fault
  | .ok () =>
    match checkOps family 0 (fun _ => none) p with
    | .error fault => .error fault
    | .ok s =>
      match s.unused? with
      | some reg => .error (.unused reg.index)
      | none => .ok ()

/-- Checks a program; a fault is a failure of validation. -/
def validate (family : Family) (p : Program) : Except Error Unit :=
  match p.check family with
  | .ok () => .ok ()
  | .error fault => .error (.program fault)

end Firewall.Program
