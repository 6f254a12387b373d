import Firewall.Proofs.Admission

namespace Firewall

/-- The registers that an operation reads. -/
def Op.reads : Op → List Register
  | .bitwise source _ _ _ _ => [source]
  | .compare _ reg _ => [reg]
  | .lookup reg _ _ => [reg]
  | .nat _ _ address port => address.toList ++ port.toList
  | .load _ _ | .immediate _ _ | .limit _ | .counter | .verdict _ => []

/-- The register that an operation writes, and how many bytes. -/
def Op.write? : Op → Option (Register × Nat)
  | .load field reg => some (reg, field.length.toNat)
  | .bitwise _ target length _ _ => some (target, length.toNat)
  | .immediate reg data => some (reg, data.length)
  | .compare _ _ _ | .lookup _ _ _ | .nat _ _ _ _ | .limit _ | .counter | .verdict _ => none

/-- How an operation that ends a rule ends it. -/
def Op.outcome? : Op → Option Outcome
  | .verdict v => some (.verdict v)
  | .nat _ _ _ _ => some .nat
  | _ => none

/-- The operands of an operation are as wide as the value that it works on, and a mask keeps its width. -/
def Op.Fits (r : Registers) : Op → Prop
  | .bitwise source _ length mask xor =>
    length.toNat = (r source).length ∧ mask.length = (r source).length ∧
      xor.length = (r source).length ∧ (maskBytes (r source) mask xor).length = (r source).length
  | .compare _ reg data => data.length = (r reg).length
  | _ => True

section Widths

theorem Bytes.resize_length (len : Nat) (bs : List UInt8) : (resize len bs).length = len := by
  rw [resize, List.length_append, List.length_take, List.length_replicate]
  omega

theorem maskBytes_length {value mask xor : List UInt8} (masked : mask.length = value.length)
    (flipped : xor.length = value.length) : (maskBytes value mask xor).length = value.length := by
  simp [maskBytes, masked, flipped]

variable {p : Packet} {field : Field} {value : List UInt8}

theorem Packet.slice?_length {bs : List UInt8} {start stop : Nat} (h : slice? bs start stop = some value) :
    start + value.length = stop := by
  unfold slice? at h
  split at h
  · rename_i within
    cases h
    rw [List.length_take, List.length_drop]
    omega
  · cases h

/-- What a packet has of a field is as long as the field. Bytes whose end is past the greatest offset are
beyond the end of every header. -/
theorem Packet.field?_length (h : p.field? field = some value) : value.length = field.length.toNat := by
  cases field with
  | metaKey key =>
    cases h
    cases key with
    | inputInterface | outputInterface => exact Bytes.resize_length _ _
    | protocol | netfilterFamily => rfl
  | ctState =>
    cases h
    exact Bytes.ofNatHost_length 4 _
  | payload header offset length =>
    obtain ⟨bs, -, sliced⟩ := Option.bind_eq_some_iff.mp h
    have stop : offset.toNat + value.length = (offset.toNat + length.toNat) % 2 ^ 32 := by
      rw [Packet.slice?_length sliced, UInt32.toNat_add]
    have bounds : offset.toNat < 2 ^ 32 ∧ length.toNat < 2 ^ 32 := ⟨offset.toNat_lt, length.toNat_lt⟩
    show value.length = length.toNat
    omega

end Widths

namespace Program

/-- The registers behind a fragment, if the run gets past it. -/
def pass (members : Members) (p : Packet) (r : Registers) : Program → Option Registers
  | [] => some r
  | op :: ops =>
    match op.step members p r with
    | .next r => pass members p r ops
    | .done _ => none

section Ends

variable {members : Members} {p : Packet} {op : Op} {f : Program}

/-- A run that gets past a fragment goes on behind it; any other has ended inside. -/
theorem run_append (r : Registers) (f g : Program) : run members p r (f ++ g) =
    match pass members p r f with
    | some r' => run members p r' g
    | none => run members p r f := by
  induction f generalizing r with
  | nil => rfl
  | cons op f ih =>
    rw [List.cons_append, run, pass, run]
    cases op.step members p r with
    | next r' => exact ih r'
    | done outcome => rfl

/-- From registers that hold the same where an operation reads, both runs end in the same way, or go on with
the same value in the same register. -/
theorem step_cases (members : Members) (p : Packet) {r q : Registers}
    (same : ∀ reg ∈ op.reads, q reg = r reg) :
    (∃ outcome, op.step members p r = .done outcome ∧ op.step members p q = .done outcome) ∨
    (op.write? = none ∧ op.step members p r = .next r ∧ op.step members p q = .next q) ∨
    ∃ reg width value, op.write? = some (reg, width) ∧ (op.Fits r → value.length = width) ∧
      op.step members p r = .next (r.set reg value) ∧ op.step members p q = .next (q.set reg value) := by
  have guarded : ∀ {b : Bool}, op.write? = none → op.step members p r = .guard b r →
      op.step members p q = .guard b q →
      (∃ outcome, op.step members p r = .done outcome ∧ op.step members p q = .done outcome) ∨
        (op.write? = none ∧ op.step members p r = .next r ∧ op.step members p q = .next q) := by
    intro b silent first second
    cases b with
    | true => exact .inr ⟨silent, first, second⟩
    | false => exact .inl ⟨.noMatch, first, second⟩
  cases op with
  | load field reg =>
    cases found : p.field? field with
    | none => exact .inl ⟨.noMatch, by rw [Op.step, found], by rw [Op.step, found]⟩
    | some value =>
      exact .inr (.inr ⟨reg, _, value, rfl, fun _ => Packet.field?_length found, by rw [Op.step, found],
        by rw [Op.step, found]⟩)
  | bitwise source target length mask xor =>
    refine .inr (.inr ⟨target, _, maskBytes (r source) mask xor, rfl, fun fits => ?_, rfl, ?_⟩)
    · rw [fits.2.2.2, fits.1]
    · rw [Op.step, same source List.mem_cons_self]
  | compare comparison reg data =>
    refine (guarded rfl rfl ?_).imp_right .inl
    rw [Op.step, same reg List.mem_cons_self]
  | lookup reg set invert =>
    refine (guarded rfl rfl ?_).imp_right .inl
    rw [Op.step, same reg List.mem_cons_self]
  | immediate reg data => exact .inr (.inr ⟨reg, _, data, rfl, fun _ => rfl, rfl, rfl⟩)
  | limit rate => exact (guarded rfl rfl rfl).imp_right .inl
  | counter => exact .inr (.inl ⟨rfl, rfl, rfl⟩)
  | nat | verdict => exact .inl ⟨_, rfl, rfl⟩

/-- An operation inside a rule ends a run without a match, if it ends it. -/
theorem step_inside (inside : op.isTerminal = false) {r : Registers} {outcome : Outcome}
    (h : op.step members p r = .done outcome) : outcome = .noMatch := by
  have guarded : ∀ {b : Bool}, Step.guard b r = .done outcome → outcome = .noMatch := by
    intro b e
    cases b with
    | true => cases e
    | false =>
      cases e
      rfl
  cases op with
  | load field reg =>
    rw [Op.step] at h
    split at h
    · cases h
    · cases h
      rfl
  | compare | lookup | limit => exact guarded h
  | bitwise | immediate | counter => cases h
  | nat | verdict => cases inside

theorem run_inside (inside : ∀ op ∈ f, op.isTerminal = false) (r : Registers) :
    run members p r f = .noMatch := by
  induction f generalizing r with
  | nil => rfl
  | cons op f ih =>
    obtain ⟨here, rest⟩ := List.forall_mem_cons.mp inside
    rw [run]
    cases stepped : op.step members p r with
    | next r' => exact ih rest r'
    | done outcome => exact step_inside here stepped

/-- A terminal operation ends every run that comes to it, in its own way. -/
theorem run_terminal (terminal : op.isTerminal = true) (r : Registers) :
    op.outcome? = some (run members p r [op]) := by
  cases op with
  | nat | verdict => rfl
  | load | bitwise | compare | lookup | immediate | limit | counter => cases terminal

theorem validate_ok {family : Family} {program : Program} (h : program.validate family = .ok ()) :
    ∃ front last s, program = front ++ [last] ∧ last.isTerminal = true ∧
      (∀ op ∈ front, op.isTerminal = false) ∧ checkOps family 0 (fun _ => none) program = .ok s := by
  unfold validate at h
  split at h
  · rename_i passed
    unfold check at passed
    split at passed
    · cases passed
    · rename_i ending
      split at passed
      · cases passed
      · rename_i s followed
        unfold checkEnd at ending
        split at ending
        · cases ending
        · rename_i last found
          obtain ⟨front, rfl⟩ := List.getLast?_eq_some_iff.mp found
          split at ending
          · cases ending
          · rename_i terminal
            rw [List.dropLast_concat] at ending
            split at ending
            · cases ending
            · rename_i alone
              exact ⟨front, last, s, rfl, by simpa using terminal, List.findIdx?_eq_none_iff.mp alone,
                followed⟩
  · cases h

end Ends

section Slots

variable {family : Family} {pos width : Nat} {s s' : Slots} {reg : Register} {op : Op}

theorem Slots.write_inv {length : Nat} (h : s.write reg length pos = .ok s') :
    length ≤ Register.width ∧ s' = s.set reg ⟨length, false⟩ := by
  unfold write at h
  split at h
  · cases h
  · split at h
    · cases h
    · rename_i fits
      cases h
      exact ⟨Nat.le_of_not_lt fits, rfl⟩

theorem Slots.read_inv (h : s.read reg pos = .ok (width, s')) :
    ∃ slot, s reg = some slot ∧ width = slot.length ∧ s' = s.set reg ⟨slot.length, true⟩ := by
  unfold read at h
  split at h
  · rename_i slot known
    cases h
    exact ⟨slot, known, rfl, rfl⟩
  · cases h

/-- What becomes of the registers when they are read: each is known with the same width as before. -/
def Slots.Kept (s s' : Slots) : Prop :=
  ∀ reg slot, s' reg = some slot → ∃ before, s reg = some before ∧ before.length = slot.length

theorem Slots.kept_read {slot : Slot} (known : s reg = some slot) :
    s.Kept (s.set reg ⟨slot.length, true⟩) := by
  intro q after found
  by_cases here : q = reg
  · subst here
    rw [Slots.set_self] at found
    cases found
    exact ⟨slot, known, rfl⟩
  · rw [Slots.set_other here] at found
    exact ⟨after, found, rfl⟩

theorem Slots.readAll_inv {regs : List Register} (h : s.readAll pos regs = .ok s') :
    (∀ reg ∈ regs, ∃ slot, s reg = some slot) ∧ s.Kept s' := by
  induction regs generalizing s with
  | nil =>
    cases h
    exact ⟨fun reg member => absurd member List.not_mem_nil, fun reg slot found => ⟨slot, found, rfl⟩⟩
  | cons reg regs ih =>
    unfold readAll at h
    split at h
    · rename_i width s₁ first
      obtain ⟨slot, known, -, rfl⟩ := read_inv first
      obtain ⟨others, kept⟩ := ih h
      constructor
      · intro q member
        rcases List.mem_cons.mp member with rfl | later
        · exact ⟨slot, known⟩
        · obtain ⟨after, found⟩ := others q later
          obtain ⟨before, there, -⟩ := kept_read known q after found
          exact ⟨before, there⟩
      · intro q after found
        obtain ⟨between, there, same⟩ := kept q after found
        obtain ⟨before, first, length⟩ := kept_read known q between there
        exact ⟨before, first, length.trans same⟩
    · cases h

/-- What the check makes sure of at an operation: it reads what is known, its operands have the width of what
it reads, and it writes what a register can hold. Behind it, a register is known by what is written there,
or as it was. -/
structure Checked (s : Slots) (op : Op) (s' : Slots) : Prop where
  reads : ∀ reg ∈ op.reads, ∃ slot, s reg = some slot
  operands : ∀ r : Registers, (∀ reg slot, s reg = some slot → (r reg).length = slot.length) → op.Fits r
  fits : ∀ reg width, op.write? = some (reg, width) → width ≤ Register.width
  known : ∀ reg slot, s' reg = some slot → op.write? = some (reg, slot.length) ∨
    (∀ width, op.write? ≠ some (reg, width)) ∧ ∃ before, s reg = some before ∧ before.length = slot.length

/-- An operation that writes nothing. -/
theorem Checked.silent (none : op.write? = none) (reads : ∀ reg ∈ op.reads, ∃ slot, s reg = some slot)
    (operands : ∀ r : Registers, (∀ reg slot, s reg = some slot → (r reg).length = slot.length) → op.Fits r)
    (kept : s.Kept s') : Checked s op s' where
  reads := reads
  operands := operands
  fits := by
    intro reg width written
    rw [none] at written
    cases written
  known := by
    intro reg slot found
    refine .inr ⟨fun width written => ?_, kept reg slot found⟩
    rw [none] at written
    cases written

/-- An operation that writes to a register, after what it has read. -/
theorem Checked.writing {s₁ : Slots} (written : op.write? = some (reg, width)) (kept : s.Kept s₁)
    (reads : ∀ reg ∈ op.reads, ∃ slot, s reg = some slot)
    (operands : ∀ r : Registers, (∀ reg slot, s reg = some slot → (r reg).length = slot.length) → op.Fits r)
    (h : s₁.write reg width pos = .ok s') : Checked s op s' := by
  obtain ⟨fits, rfl⟩ := Slots.write_inv h
  refine ⟨reads, operands, ?_, ?_⟩
  · intro q width' written'
    cases written.symm.trans written'
    exact fits
  · intro q slot found
    by_cases here : q = reg
    · subst here
      rw [Slots.set_self] at found
      cases found
      exact .inl written
    · rw [Slots.set_other here] at found
      refine .inr ⟨fun width' written' => ?_, kept q slot found⟩
      cases written.symm.trans written'
      exact here rfl

theorem Slots.Kept.refl (s : Slots) : s.Kept s := fun _ slot found => ⟨slot, found, rfl⟩

theorem checkOp_load {field : Field} (h : checkOp family pos s (.load field reg) = .ok s') :
    s.write reg field.length.toNat pos = .ok s' := by
  cases field with
  | metaKey | ctState => exact h
  | payload header offset length =>
    cases header with
    | transport => exact h
    | network =>
      rw [checkOp] at h
      split at h
      · cases h
      · exact h

theorem checkOp_checked (h : checkOp family pos s op = .ok s') : Checked s op s' := by
  have unread : ∀ reg ∈ ([] : List Register), ∃ slot, s reg = some slot :=
    fun reg member => absurd member List.not_mem_nil
  have single : ∀ {reg : Register} {slot : Slot}, s reg = some slot →
      ∀ q ∈ [reg], ∃ slot, s q = some slot := by
    intro reg slot known q member
    rw [List.mem_singleton.mp member]
    exact ⟨slot, known⟩
  cases op with
  | load field reg => exact .writing rfl (.refl s) unread (fun _ _ => trivial) (checkOp_load h)
  | bitwise source target length mask xor =>
    rw [checkOp] at h
    split at h
    · rename_i width s₁ first
      obtain ⟨slot, known, rfl, rfl⟩ := Slots.read_inv first
      split at h
      · cases h
      · rename_i widths
        obtain ⟨all, masked, flipped⟩ : length.toNat = slot.length ∧ mask.length = length.toNat ∧
            xor.length = length.toNat := by
          simpa only [not_or, Decidable.not_not] using widths
        refine .writing rfl (Slots.kept_read known) (single known) (fun r held => ?_) h
        have value := held source slot known
        rw [all, ← value] at masked flipped
        exact ⟨all.trans value.symm, masked, flipped, maskBytes_length masked flipped⟩
    · cases h
  | compare comparison reg data =>
    rw [checkOp] at h
    split at h
    · rename_i width s₁ first
      obtain ⟨slot, known, rfl, rfl⟩ := Slots.read_inv first
      split at h
      · cases h
      · rename_i width
        cases h
        refine .silent rfl (single known) (fun r held => ?_) (Slots.kept_read known)
        exact (Decidable.not_not.mp width).trans (held reg slot known).symm
    · cases h
  | lookup reg set invert =>
    rw [checkOp] at h
    split at h
    · rename_i width s₁ first
      obtain ⟨slot, known, -, rfl⟩ := Slots.read_inv first
      cases h
      exact .silent rfl (single known) (fun _ _ => trivial) (Slots.kept_read known)
    · cases h
  | immediate reg data => exact .writing rfl (.refl s) unread (fun _ _ => trivial) h
  | nat kind natFamily address port =>
    rw [checkOp] at h
    split at h
    · cases h
    · obtain ⟨reads, kept⟩ := Slots.readAll_inv h
      exact .silent rfl reads (fun _ _ => trivial) kept
  | limit | counter | verdict =>
    cases h
    exact .silent rfl unread (fun _ _ => trivial) (.refl s)

theorem checkOps_cons {ops : Program} (h : checkOps family pos s (op :: ops) = .ok s') :
    ∃ s₁, Checked s op s₁ ∧ checkOps family (pos + 1) s₁ ops = .ok s' := by
  rw [checkOps] at h
  split at h
  · rename_i s₁ first
    exact ⟨s₁, checkOp_checked first, h⟩
  · cases h

/-- The check knows a register only by an operation that has written it. -/
theorem checkOps_written {f : Program} (h : checkOps family pos s f = .ok s') {slot : Slot}
    (known : s' reg = some slot) :
    (∃ before, s reg = some before) ∨ ∃ w ∈ f, ∃ width, w.write? = some (reg, width) := by
  induction f generalizing pos s with
  | nil =>
    cases h
    exact .inl ⟨slot, known⟩
  | cons op f ih =>
    obtain ⟨s₁, checked, rest⟩ := checkOps_cons h
    rcases ih rest with ⟨between, there⟩ | ⟨w, member, written⟩
    · rcases checked.known reg between there with written | ⟨-, before, earlier, -⟩
      · exact .inr ⟨op, List.mem_cons_self, _, written⟩
      · exact .inl ⟨before, earlier⟩
    · exact .inr ⟨w, List.mem_cons_of_mem op member, written⟩

end Slots

section Runs

variable {family : Family} {pos : Nat} {s s' : Slots} {r q : Registers} {op : Op} {f : Program}
  {members : Members} {p : Packet}

/-- What is known of the registers holds of those of two runs, which have the same bytes there. -/
def Describes (s : Slots) (r q : Registers) : Prop :=
  ∀ reg slot, s reg = some slot →
    (r reg).length = slot.length ∧ slot.length ≤ Register.width ∧ q reg = r reg

theorem Describes.kept (describes : Describes s r q) (silent : op.write? = none)
    (checked : Checked s op s') : Describes s' r q := by
  intro reg slot found
  rcases checked.known reg slot found with written | ⟨-, before, there, same⟩
  · rw [silent] at written
    cases written
  · rw [← same]
    exact describes reg before there

theorem Describes.written (describes : Describes s r q) {reg : Register} {width : Nat} {value : List UInt8}
    (writes : op.write? = some (reg, width)) (length : value.length = width) (checked : Checked s op s') :
    Describes s' (r.set reg value) (q.set reg value) := by
  intro other slot found
  rcases checked.known other slot found with written | ⟨unwritten, before, there, same⟩
  · cases writes.symm.trans written
    rw [Registers.set, Registers.set, if_pos rfl]
    exact ⟨length, checked.fits _ _ writes, if_pos rfl⟩
  · have apart : other ≠ reg := by
      rintro rfl
      exact unwritten width writes
    rw [Registers.set, Registers.set, if_neg apart, if_neg apart, ← same]
    exact describes other before there

/-- A checked operation works alike on registers that hold the same where the check knows them, and what it
knows behind the operation holds again. -/
theorem Describes.step (describes : Describes s r q) (checked : Checked s op s') (members : Members)
    (p : Packet) :
    op.Fits r ∧ ((∃ outcome, op.step members p r = .done outcome ∧ op.step members p q = .done outcome) ∨
      ∃ r' q', op.step members p r = .next r' ∧ op.step members p q = .next q' ∧ Describes s' r' q') := by
  have fits : op.Fits r := checked.operands r fun reg slot known => (describes reg slot known).1
  have same : ∀ reg ∈ op.reads, q reg = r reg := by
    intro reg member
    obtain ⟨slot, known⟩ := checked.reads reg member
    exact (describes reg slot known).2.2
  refine ⟨fits, ?_⟩
  rcases step_cases members p same with
    ended | ⟨silent, first, second⟩ | ⟨reg, width, value, writes, length, first, second⟩
  · exact .inl ended
  · exact .inr ⟨r, q, first, second, describes.kept silent checked⟩
  · exact .inr ⟨_, _, first, second, describes.written writes (length fits) checked⟩

/-- Two runs get past a checked fragment both or neither. -/
theorem Describes.pass (describes : Describes s r q) (checked : checkOps family pos s f = .ok s')
    (members : Members) (p : Packet) :
    (pass members p r f = none ∧ pass members p q f = none) ∨
      ∃ r' q', pass members p r f = some r' ∧ pass members p q f = some q' ∧ Describes s' r' q' := by
  induction f generalizing pos s r q with
  | nil =>
    cases checked
    exact .inr ⟨r, q, rfl, rfl, describes⟩
  | cons op f ih =>
    obtain ⟨s₁, first, rest⟩ := checkOps_cons checked
    rcases (describes.step first members p).2 with ⟨outcome, hr, hq⟩ | ⟨r₁, q₁, hr, hq, behind⟩
    · refine .inl ⟨?_, ?_⟩
      · rw [Program.pass, hr]
      · rw [Program.pass, hq]
    · rw [Program.pass, Program.pass, hr, hq]
      exact ih behind rest

theorem describes_nothing (r q : Registers) : Describes (fun _ => none) r q := by
  intro reg slot known
  cases known

theorem checkOps_split {g : Program} (h : checkOps family pos s (f ++ g) = .ok s') :
    ∃ s₁, checkOps family pos s f = .ok s₁ ∧ checkOps family (pos + f.length) s₁ g = .ok s' := by
  rw [checkOps_append] at h
  cases before : checkOps family pos s f with
  | error fault =>
    rw [before] at h
    cases h
  | ok s₁ =>
    rw [before] at h
    exact ⟨s₁, rfl, h⟩

/-- An operation that a run comes to finds its registers as the check says. -/
theorem operation_safe {front rest : Program} {r₀ : Registers}
    (followed : checkOps family 0 (fun _ => none) (front ++ op :: rest) = .ok s)
    (passed : pass members p r₀ front = some r) :
    op.Fits r ∧ ∃ s, checkOps family 0 (fun _ => none) front = .ok s ∧ ∀ reg ∈ op.reads,
      (∃ w ∈ front, ∃ width, w.write? = some (reg, width)) ∧
      ∃ slot, s reg = some slot ∧ (r reg).length = slot.length ∧ slot.length ≤ Register.width := by
  obtain ⟨s₁, before, behind⟩ := checkOps_split followed
  obtain ⟨s₂, here, -⟩ := checkOps_cons behind
  rcases (describes_nothing r₀ r₀).pass before members p with ⟨none, -⟩ | ⟨r', q', some, -, describes⟩
  · rw [none] at passed
    cases passed
  · cases some.symm.trans passed
    refine ⟨(describes.step here members p).1, s₁, before, fun reg read => ?_⟩
    obtain ⟨slot, known⟩ := here.reads reg read
    obtain ⟨length, fits, -⟩ := describes reg slot known
    refine ⟨(checkOps_written before known).resolve_left ?_, slot, known, length, fits⟩
    rintro ⟨_, nothing⟩
    cases nothing

/-- A checked program ends alike on all registers. -/
theorem run_alike {body : Program} {last : Op} (r₀ q₀ : Registers)
    (followed : checkOps family 0 (fun _ => none) (body ++ [last]) = .ok s)
    (inside : ∀ op ∈ body, op.isTerminal = false) (terminal : last.isTerminal = true) :
    run members p r₀ (body ++ [last]) = run members p q₀ (body ++ [last]) := by
  obtain ⟨s₁, before, -⟩ := checkOps_split followed
  rw [run_append, run_append]
  rcases (describes_nothing r₀ q₀).pass before members p with ⟨hr, hq⟩ | ⟨r, q, hr, hq, -⟩
  · rw [hr, hq]
    exact (run_inside inside _).trans (run_inside inside _).symm
  · rw [hr, hq]
    exact Option.some.inj ((run_terminal terminal r).symm.trans (run_terminal terminal q))

/-- Wherever a run of a checked program comes to an operation, on whatever registers it has started, the
registers that the operation reads have been written by the run and hold as many bytes as the check knows,
which fit a register, and its operands have their width. The run ends without a match, or as the last
operation of the program says; and it ends as a run on empty registers does. -/
theorem checked_runs_safely {program : Program} (checked : program.validate family = .ok ())
    (wf : p.wellFormed = true) (members : Members) (r₀ : Registers) :
    (∀ front op rest r, program = front ++ op :: rest → pass members p r₀ front = some r →
      op.Fits r ∧ ∃ s, checkOps family 0 (fun _ => none) front = .ok s ∧ ∀ reg ∈ op.reads,
        (∃ w ∈ front, ∃ width, w.write? = some (reg, width)) ∧
        ∃ slot, s reg = some slot ∧ (r reg).length = slot.length ∧ slot.length ≤ Register.width) ∧
    (program.evaluate members p = .noMatch ∨
      ∃ last, program.getLast? = some last ∧ last.outcome? = some (program.evaluate members p)) ∧
    program.run members p r₀ = program.evaluate members p := by
  obtain ⟨body, last, s, rfl, terminal, inside, followed⟩ := validate_ok checked
  have evaluated : Program.evaluate members p (body ++ [last]) = run members p .empty (body ++ [last]) :=
    if_pos wf
  refine ⟨?_, ?_, ?_⟩
  · intro front op rest r split passed
    rw [split] at followed
    exact operation_safe followed passed
  · rw [evaluated, run_append]
    cases pass members p .empty body with
    | none => exact .inl (run_inside inside _)
    | some r => exact .inr ⟨last, List.getLast?_concat, run_terminal terminal r⟩
  · rw [evaluated]
    exact run_alike r₀ .empty followed inside terminal

def networkRule : Program :=
  [.load (.payload .network 12 4) ⟨1⟩, .bitwise ⟨1⟩ ⟨2⟩ 4 [255, 255, 255, 0] [0, 0, 0, 0],
    .compare .eq ⟨2⟩ [198, 51, 100, 0], .load (.payload .transport 2 2) ⟨1⟩,
    .lookup ⟨1⟩ ⟨"open_ports", 1⟩ false, .verdict .accept]

def networkPacket : Packet where
  inputInterface := some "eth0"
  outputInterface := none
  protocol := protocolTcp
  source := .v4 0xC6336407#32
  destination := .v4 0xCB007107#32
  sourcePort := 40000
  destinationPort := 443
  icmpType := 0
  icmpCode := 0
  ctState := 8

def networkMembers : Members := fun name key => name == "open_ports" && key == [1, 187]

theorem checked_runs_safely_network :
    networkRule.validate .ipv4 = .ok () ∧ networkPacket.wellFormed = true ∧
    (∃ r, pass networkMembers networkPacket (fun _ => [1, 2, 3]) (networkRule.take 2) = some r ∧
      (Op.compare .eq ⟨2⟩ [198, 51, 100, 0]).Fits r) ∧
    networkRule.evaluate networkMembers networkPacket = .verdict .accept ∧
    networkRule.run networkMembers networkPacket (fun _ => [1, 2, 3]) = .verdict .accept := by
  have checked : networkRule.validate .ipv4 = .ok () := by decide
  have wf : networkPacket.wellFormed = true := by decide
  have accepted : networkRule.evaluate networkMembers networkPacket = .verdict .accept := by decide
  obtain ⟨reached, -, same⟩ := checked_runs_safely checked wf networkMembers fun _ => [1, 2, 3]
  have passes : (pass networkMembers networkPacket (fun _ => [1, 2, 3]) (networkRule.take 2)).isSome := by
    decide
  obtain ⟨r, passed⟩ := Option.isSome_iff_exists.mp passes
  exact ⟨checked, wf, ⟨r, passed, (reached (networkRule.take 2) _ _ r rfl passed).1⟩, accepted,
    same.trans accepted⟩

end Runs

end Program
end Firewall
