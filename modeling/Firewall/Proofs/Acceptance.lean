import Firewall.Proofs.RegisterSafety

namespace Firewall

/-- The operation stores bytes in the register. -/
def Op.Writes (op : Op) (reg : Register) : Prop := ∃ width, op.write? = some (reg, width)

/-- The operands of an operation are as wide as the value that it reads. -/
def Op.HasOperands (width : Nat) : Op → Prop
  | .bitwise _ _ length mask xor => length.toNat = width ∧ mask.length = width ∧ xor.length = width
  | .compare _ _ data => data.length = width
  | _ => True

/-- The operation can be in a table of the family: it loads nothing by the layout of the other family, and
NAT is of the family. -/
def Op.Belongs (family : Family) : Op → Prop
  | .load (.payload .network offset length) _ =>
    (offset, length) ∉ Program.layoutLoads family.other.profile
  | .nat _ natFamily _ _ => natFamily = family
  | _ => True

namespace Program

/-- The register was written last by an operation that has stored that many bytes; since then it was the
turn of the given operations. -/
def WrittenLast (front : Program) (reg : Register) (width : Nat) (since : Program) : Prop :=
  ∃ before op, front = before ++ op :: since ∧ op.write? = some (reg, width) ∧ ∀ o ∈ since, ¬ o.Writes reg

/-- The programs that can be installed in a table of the family. -/
structure WellFormed (family : Family) (p : Program) : Prop where
  /-- The last operation and no other ends the rule. -/
  ending : ∃ body last, p = body ++ [last] ∧ last.isTerminal = true ∧ ∀ op ∈ body, op.isTerminal = false
  /-- What is read was written before. -/
  written : ∀ front op back, p = front ++ op :: back → ∀ reg ∈ op.reads, ∃ w ∈ front, w.Writes reg
  /-- Between two writes of a register something reads it; the second one may do so itself. -/
  used : ∀ front op back, p = front ++ op :: back → ∀ reg, op.Writes reg →
    ∀ width since, WrittenLast front reg width since → reg ∈ op.reads ∨ ∃ o ∈ since, reg ∈ o.reads
  /-- Something reads what was written last. -/
  usedLast : ∀ reg width since, WrittenLast p reg width since → ∃ o ∈ since, reg ∈ o.reads
  fits : ∀ op ∈ p, ∀ reg width, op.write? = some (reg, width) → width ≤ Register.width
  /-- Operands are as wide as what was written last to the register that is read. -/
  operands : ∀ front op back, p = front ++ op :: back → ∀ reg ∈ op.reads,
    ∀ width since, WrittenLast front reg width since → op.HasOperands width
  belongs : ∀ op ∈ p, op.Belongs family

section Marks

variable {family : Family} {pos : Nat} {s s' : Slots} {reg : Register} {regs : List Register} {op : Op}

/-- What is known of the registers when some of them have been read. -/
def Slots.used (s : Slots) (regs : List Register) : Slots := fun reg =>
  if reg ∈ regs then (s reg).map fun slot => { slot with read := true } else s reg

@[simp] theorem Slots.used_nil (s : Slots) : s.used [] = s := by
  funext reg
  simp [used]

theorem Slots.used_single {slot : Slot} (known : s reg = some slot) :
    s.used [reg] = s.set reg ⟨slot.length, true⟩ := by
  funext q
  by_cases here : q = reg
  · simp [used, set, here, known]
  · simp [used, set, here]

theorem Slots.used_cons (s : Slots) (reg : Register) (regs : List Register) :
    s.used (reg :: regs) = (s.used [reg]).used regs := by
  funext q
  by_cases here : q = reg
  · cases known : s q <;> simp [used, ← here, known]
  · simp [used, here]

/-- A register can be written if it holds nothing or this has been read. -/
theorem Slots.used_free : (∀ slot, s.used regs reg = some slot → slot.read = true) ↔
    ∀ slot, s reg = some slot → reg ∈ regs ∨ slot.read = true := by
  by_cases here : reg ∈ regs
  · simp [used, here]
  · simp [used, here]

/-- What an operation makes of what is known of the registers. -/
def Slots.after (s : Slots) (op : Op) : Slots :=
  match op.write? with
  | some (reg, width) => (s.used op.reads).set reg ⟨width, false⟩
  | none => s.used op.reads

theorem Slots.after_writing {width : Nat} (h : op.write? = some (reg, width)) :
    s.after op = (s.used op.reads).set reg ⟨width, false⟩ := by
  simp [after, h]

theorem Slots.after_silent (h : op.write? = none) : s.after op = s.used op.reads := by
  simp [after, h]

theorem Slots.after_other (unwritten : ¬ op.Writes reg) : s.after op reg = s.used op.reads reg := by
  cases written : op.write? with
  | none => rw [after_silent written]
  | some target =>
    have other : reg ≠ target.1 := by
      rintro rfl
      exact unwritten ⟨target.2, written⟩
    rw [after_writing written, set_other other]

/-- What the check asks of an operation, given what is known of the registers. -/
structure Admits (family : Family) (s : Slots) (op : Op) : Prop where
  belongs : op.Belongs family
  reads : ∀ reg ∈ op.reads, ∃ slot, s reg = some slot ∧ op.HasOperands slot.length
  writes : ∀ reg width, op.write? = some (reg, width) →
    (∀ slot, s.used op.reads reg = some slot → slot.read = true) ∧ width ≤ Register.width

theorem admits_silent (h : op.write? = none) : Admits family s op ↔
    op.Belongs family ∧ ∀ reg ∈ op.reads, ∃ slot, s reg = some slot ∧ op.HasOperands slot.length := by
  constructor
  · intro admits
    exact ⟨admits.belongs, admits.reads⟩
  · rintro ⟨belongs, reads⟩
    exact ⟨belongs, reads, by simp [h]⟩

theorem admits_writing {width : Nat} (h : op.write? = some (reg, width)) : Admits family s op ↔
    op.Belongs family ∧ (∀ reg ∈ op.reads, ∃ slot, s reg = some slot ∧ op.HasOperands slot.length) ∧
      (∀ slot, s.used op.reads reg = some slot → slot.read = true) ∧ width ≤ Register.width := by
  constructor
  · intro admits
    exact ⟨admits.belongs, admits.reads, admits.writes reg width h⟩
  · rintro ⟨belongs, reads, free, fits⟩
    refine ⟨belongs, reads, fun q width' same => ?_⟩
    cases h.symm.trans same
    exact ⟨free, fits⟩

theorem Slots.write_iff {width : Nat} : s.write reg width pos = .ok s' ↔
    ((∀ slot, s reg = some slot → slot.read = true) ∧ width ≤ Register.width) ∧
      s' = s.set reg ⟨width, false⟩ := by
  constructor
  · intro h
    obtain ⟨fits, rfl⟩ := write_inv h
    refine ⟨⟨fun slot known => ?_, fits⟩, rfl⟩
    cases read : slot.read with
    | true => rfl
    | false => simp [write, known, read] at h
  · rintro ⟨⟨free, fits⟩, rfl⟩
    exact write_ok free fits pos

theorem Slots.readAll_iff : s.readAll pos regs = .ok s' ↔
    (∀ reg ∈ regs, ∃ slot, s reg = some slot) ∧ s' = s.used regs := by
  induction regs generalizing s with
  | nil => simp [readAll, eq_comm]
  | cons reg regs ih =>
    cases known : s reg with
    | none => simp [readAll, read, known]
    | some slot =>
      have rest : (∀ q ∈ regs, ∃ slot', s.set reg ⟨slot.length, true⟩ q = some slot') ↔
          ∀ q ∈ regs, ∃ slot', s q = some slot' := by
        refine forall₂_congr fun q _ => ?_
        by_cases here : q = reg
        · simp [set, here, known]
        · simp [set, here]
      simp [readAll, read, known, ih, used_cons, used_single known, rest]

theorem usesForeignLayout_iff {offset length : UInt32} : usesForeignLayout family offset length = true ↔
    (offset, length) ∈ layoutLoads family.other.profile := by
  -- No load has a meaning in both layouts.
  have apart : (layoutLoads family.other.profile).all
      (fun load => !(layoutLoads family.profile).contains load) = true := by
    cases family <;> decide
  have other : ∀ load ∈ layoutLoads family.other.profile, load ∉ layoutLoads family.profile := by
    simpa using List.all_eq_true.mp apart
  rw [usesForeignLayout, Bool.and_eq_true, Bool.not_eq_true', List.contains_iff_mem,
    ← Bool.not_eq_true, List.contains_iff_mem]
  exact ⟨And.right, fun there => ⟨other _ there, there⟩⟩

theorem checkOp_loads_iff {field : Field} : checkOp family pos s (.load field reg) = .ok s' ↔
    (Op.load field reg).Belongs family ∧ s.write reg field.length.toNat pos = .ok s' := by
  have plain : ∀ {x : Except ProgramFault Slots}, x = .ok s' ↔ True ∧ x = .ok s' := by simp
  cases field with
  | metaKey | ctState => exact plain
  | payload header offset length =>
    cases header with
    | transport => exact plain
    | network =>
      rw [checkOp, Op.Belongs, ← usesForeignLayout_iff]
      cases usesForeignLayout family offset length with
      | true => simp
      | false => simp [Field.length]

/-- The check of an operation: what it asks, and what it knows of the registers afterwards. -/
theorem checkOp_iff : checkOp family pos s op = .ok s' ↔ Admits family s op ∧ s' = s.after op := by
  cases op with
  | load field reg =>
    rw [checkOp_loads_iff, Slots.write_iff, admits_writing rfl, Slots.after_writing rfl]
    simp [Op.reads, and_assoc]
  | immediate reg data =>
    rw [checkOp, Slots.write_iff, admits_writing rfl, Slots.after_writing rfl]
    simp [Op.reads, Op.Belongs, and_assoc]
  | bitwise source target length mask xor =>
    rw [admits_writing rfl, Slots.after_writing rfl]
    cases known : s source with
    | none => simp [checkOp, Slots.read, known, Op.reads]
    | some slot =>
      have widths : (length.toNat ≠ slot.length ∨ mask.length ≠ length.toNat ∨ xor.length ≠ length.toNat) ↔
          ¬ (Op.bitwise source target length mask xor).HasOperands slot.length := by
        simp only [Op.HasOperands]
        omega
      rw [checkOp, Slots.read, known]
      dsimp only
      by_cases wide : (Op.bitwise source target length mask xor).HasOperands slot.length
      · rw [if_neg (not_not.mpr wide ∘ widths.mp), Slots.write_iff]
        simp [Op.reads, Op.Belongs, wide, known, Slots.used_single known]
      · rw [if_pos (widths.mpr wide)]
        simp [Op.reads, wide, known]
  | compare comparison reg data =>
    rw [admits_silent rfl, Slots.after_silent rfl]
    cases known : s reg with
    | none => simp [checkOp, Slots.read, known, Op.reads]
    | some slot =>
      by_cases wide : data.length = slot.length
      · simp [checkOp, Slots.read, known, Op.reads, Op.Belongs, Op.HasOperands, wide,
          Slots.used_single known, eq_comm]
      · simp [checkOp, Slots.read, known, Op.reads, Op.HasOperands, wide]
  | lookup reg set invert =>
    rw [admits_silent rfl, Slots.after_silent rfl]
    cases known : s reg with
    | none => simp [checkOp, Slots.read, known, Op.reads]
    | some slot =>
      simp [checkOp, Slots.read, known, Op.reads, Op.Belongs, Op.HasOperands, Slots.used_single known,
        eq_comm]
  | nat kind natFamily address port =>
    rw [admits_silent rfl, Slots.after_silent rfl, checkOp]
    by_cases own : natFamily = family
    · rw [if_neg (not_not.mpr own), Slots.readAll_iff]
      simp [Op.reads, Op.Belongs, Op.HasOperands, own]
    · simp [own, Op.Belongs]
  | limit | counter | verdict =>
    rw [admits_silent rfl, Slots.after_silent rfl]
    simp [checkOp, Op.reads, Op.Belongs, eq_comm]

end Marks

section Fragments

variable {family : Family} {pos : Nat} {s s' : Slots} {reg : Register} {width : Nat} {op : Op}
  {front since p : Program}

def Slots.behind (s : Slots) (p : Program) : Slots := p.foldl Slots.after s

theorem Slots.behind_cons (s : Slots) (op : Op) (p : Program) :
    s.behind (op :: p) = (s.after op).behind p := rfl

theorem Slots.behind_concat (s : Slots) (p : Program) (op : Op) :
    s.behind (p ++ [op]) = (s.behind p).after op := List.foldl_concat _ _ _ _

/-- A program in two parts around each of its operations: around the first one, or behind it. -/
theorem forall_split {P : Program → Op → Prop} :
    (∀ front o back, op :: p = front ++ o :: back → P front o) ↔
      P [] op ∧ ∀ front o back, p = front ++ o :: back → P (op :: front) o := by
  constructor
  · intro all
    refine ⟨all [] op p rfl, fun front o back split => all (op :: front) o back ?_⟩
    rw [split, List.cons_append]
  · rintro ⟨first, later⟩ front o back split
    cases front with
    | nil =>
      cases split
      exact first
    | cons q front =>
      cases split
      exact later front o back rfl

/-- The check follows a program if it admits each operation behind what comes before it. -/
theorem checkOps_iff : checkOps family pos s p = .ok s' ↔
    (∀ front op back, p = front ++ op :: back → Admits family (s.behind front) op) ∧
      s' = s.behind p := by
  induction p generalizing pos s with
  | nil => simp [checkOps, Slots.behind, eq_comm]
  | cons op p ih =>
    rw [forall_split (P := fun front o => Admits family (s.behind front) o), checkOps, and_assoc]
    have here : ∀ s₁, checkOp family pos s op = .ok s₁ ↔ Admits family (s.behind []) op ∧ s₁ = s.after op :=
      fun s₁ => checkOp_iff
    cases checked : checkOp family pos s op with
    | error fault =>
      have refused : ¬ Admits family (s.behind []) op := by
        intro admits
        have passed := (here _).mpr ⟨admits, rfl⟩
        rw [checked] at passed
        cases passed
      simp [refused]
    | ok s₁ =>
      obtain ⟨admits, rfl⟩ := (here s₁).mp checked
      simp [admits, ih, Slots.behind_cons]

/-- The last write of a register is the last operation, or the last write before it if it writes another
register or none. -/
theorem writtenLast_concat : WrittenLast (front ++ [op]) reg width since ↔
    (op.write? = some (reg, width) ∧ since = []) ∨
      ¬ op.Writes reg ∧ ∃ earlier, since = earlier ++ [op] ∧ WrittenLast front reg width earlier := by
  constructor
  · rintro ⟨before, w, split, written, silent⟩
    rcases List.eq_nil_or_concat' since with rfl | ⟨earlier, o, rfl⟩
    · obtain ⟨-, rfl⟩ := List.append_inj' split rfl |>.imp_right List.singleton_inj.mp
      exact .inl ⟨written, rfl⟩
    · rw [← List.cons_append, ← List.append_assoc] at split
      obtain ⟨rfl, same⟩ := List.append_inj' split rfl
      cases List.singleton_inj.mp same
      refine .inr ⟨silent _ (by simp), earlier, rfl, before, w, rfl, written, fun o ho => silent o ?_⟩
      exact List.mem_append_left _ ho
  · rintro (⟨written, rfl⟩ | ⟨silent, earlier, rfl, before, w, rfl, written, others⟩)
    · exact ⟨front, op, rfl, written, by simp⟩
    · refine ⟨before, w, by simp, written, fun o ho => ?_⟩
      rcases List.mem_append.mp ho with early | last
      · exact others o early
      · exact List.mem_singleton.mp last ▸ silent

theorem exists_writtenLast :
    (∃ w ∈ front, w.Writes reg) ↔ ∃ width since, WrittenLast front reg width since := by
  constructor
  · induction front using List.reverseRecOn with
    | nil => simp
    | append_singleton front op ih =>
      rintro ⟨w, member, written⟩
      by_cases last : op.Writes reg
      · obtain ⟨width, written⟩ := last
        exact ⟨width, [], writtenLast_concat.mpr (.inl ⟨written, rfl⟩)⟩
      · have earlier : w ∈ front := by
          rcases List.mem_append.mp member with early | here
          · exact early
          · exact absurd (List.mem_singleton.mp here ▸ written) last
        obtain ⟨width, since, found⟩ := ih ⟨w, earlier, written⟩
        exact ⟨width, since ++ [op], writtenLast_concat.mpr (.inr ⟨last, since, rfl, found⟩)⟩
  · rintro ⟨width, since, before, op, rfl, written, -⟩
    exact ⟨op, by simp, width, written⟩

/-- What is known of a register behind a fragment is its last write, and whether it has been read since. -/
theorem behind_iff {read : Bool} : Slots.behind (fun _ => none) front reg = some ⟨width, read⟩ ↔
    ∃ since, WrittenLast front reg width since ∧ (read = true ↔ ∃ o ∈ since, reg ∈ o.reads) := by
  induction front using List.reverseRecOn generalizing width read with
  | nil => simp [Slots.behind, WrittenLast]
  | append_singleton front op ih =>
    rw [Slots.behind_concat]
    simp only [writtenLast_concat]
    by_cases last : op.Writes reg
    · obtain ⟨stored, written⟩ := last
      have writes : op.Writes reg := ⟨stored, written⟩
      simp [Slots.after_writing written, Slots.set, writes, written, eq_comm]
    · have unwritten : op.write? ≠ some (reg, width) := fun written => last ⟨width, written⟩
      have concat : ∀ earlier : Program, (∃ o ∈ earlier ++ [op], reg ∈ o.reads) ↔
          (∃ o ∈ earlier, reg ∈ o.reads) ∨ reg ∈ op.reads := by
        simp [or_and_right, exists_or]
      have earlier : (∃ since, ((op.write? = some (reg, width) ∧ since = []) ∨ ¬ op.Writes reg ∧
            ∃ earlier, since = earlier ++ [op] ∧ WrittenLast front reg width earlier) ∧
          (read = true ↔ ∃ o ∈ since, reg ∈ o.reads)) ↔
          ∃ since, WrittenLast front reg width since ∧
            (read = true ↔ (∃ o ∈ since, reg ∈ o.reads) ∨ reg ∈ op.reads) := by
        constructor
        · rintro ⟨since, ⟨written, -⟩ | ⟨-, earlier, rfl, found⟩, reads⟩
          · exact absurd written unwritten
          · exact ⟨earlier, found, reads.trans (concat earlier)⟩
        · rintro ⟨since, found, reads⟩
          exact ⟨since ++ [op], .inr ⟨last, since, rfl, found⟩, reads.trans (concat since).symm⟩
      rw [earlier, Slots.after_other last, Slots.used]
      by_cases reads : reg ∈ op.reads
      · have before : (∃ r, Slots.behind (fun _ => none) front reg = some ⟨width, r⟩) ↔
            ∃ since, WrittenLast front reg width since := by
          constructor
          · rintro ⟨r, known⟩
            obtain ⟨since, found, -⟩ := ih.mp known
            exact ⟨since, found⟩
          · rintro ⟨since, found⟩
            exact ⟨decide (∃ o ∈ since, reg ∈ o.reads), ih.mpr ⟨since, found, by simp⟩⟩
        rw [if_pos reads]
        constructor
        · intro known
          obtain ⟨⟨stored, r⟩, held, same⟩ := Option.map_eq_some_iff.mp known
          cases same
          obtain ⟨since, found⟩ := before.mp ⟨r, held⟩
          exact ⟨since, found, by simp [reads]⟩
        · rintro ⟨since, found, all⟩
          obtain ⟨r, held⟩ := before.mpr ⟨since, found⟩
          simp [held, all.mpr (.inr reads)]
      · simp [reads, ih]

theorem WrittenLast.behind (found : WrittenLast front reg width since) :
    Slots.behind (fun _ => none) front reg = some ⟨width, decide (∃ o ∈ since, reg ∈ o.reads)⟩ :=
  behind_iff.mpr ⟨since, found, by simp⟩

/-- A register is known behind a fragment if the fragment writes it. -/
theorem behind_known : (∃ slot, Slots.behind (fun _ => none) front reg = some slot) ↔
    ∃ w ∈ front, w.Writes reg := by
  rw [exists_writtenLast]
  constructor
  · rintro ⟨⟨width, read⟩, known⟩
    obtain ⟨since, found, -⟩ := behind_iff.mp known
    exact ⟨width, since, found⟩
  · rintro ⟨width, since, found⟩
    exact ⟨_, found.behind⟩

/-- What is known of a register behind a fragment has been read if every last write has. -/
theorem behind_read {P : Prop} :
    (∀ slot, Slots.behind (fun _ => none) front reg = some slot → P ∨ slot.read = true) ↔
      ∀ width since, WrittenLast front reg width since → P ∨ ∃ o ∈ since, reg ∈ o.reads := by
  constructor
  · intro read width since found
    simpa using read _ found.behind
  · rintro used ⟨width, read⟩ known
    obtain ⟨since, found, reads⟩ := behind_iff.mp known
    exact (used width since found).imp_right reads.mpr

/-- What the check asks of an operation behind a fragment, said of the fragment. -/
theorem admits_behind_iff : Admits family (Slots.behind (fun _ => none) front) op ↔
    op.Belongs family ∧ (∀ reg ∈ op.reads, ∃ w ∈ front, w.Writes reg) ∧
      (∀ reg ∈ op.reads, ∀ width since, WrittenLast front reg width since → op.HasOperands width) ∧
      ∀ reg width, op.write? = some (reg, width) → width ≤ Register.width ∧
        ∀ stored since, WrittenLast front reg stored since → reg ∈ op.reads ∨ ∃ o ∈ since, reg ∈ o.reads := by
  have reads : ∀ reg, (∃ slot, Slots.behind (fun _ => none) front reg = some slot ∧
      op.HasOperands slot.length) ↔ (∃ w ∈ front, w.Writes reg) ∧
        ∀ width since, WrittenLast front reg width since → op.HasOperands width := by
    intro reg
    rw [← behind_known]
    constructor
    · rintro ⟨slot, known, wide⟩
      refine ⟨⟨slot, known⟩, fun width since found => ?_⟩
      cases known.symm.trans found.behind
      exact wide
    · rintro ⟨⟨⟨width, read⟩, known⟩, wide⟩
      obtain ⟨since, found, -⟩ := behind_iff.mp known
      exact ⟨⟨width, read⟩, known, wide width since found⟩
  constructor
  · intro admits
    refine ⟨admits.belongs, fun reg here => ((reads reg).mp (admits.reads reg here)).1,
      fun reg here => ((reads reg).mp (admits.reads reg here)).2, fun reg width written => ?_⟩
    obtain ⟨free, fits⟩ := admits.writes reg width written
    exact ⟨fits, behind_read.mp (Slots.used_free.mp free)⟩
  · rintro ⟨belongs, before, operands, writes⟩
    refine ⟨belongs, fun reg here => (reads reg).mpr ⟨before reg here, operands reg here⟩,
      fun reg width written => ?_⟩
    obtain ⟨fits, used⟩ := writes reg width written
    exact ⟨Slots.used_free.mpr (behind_read.mpr used), fits⟩

end Fragments

section Programs

variable {family : Family} {p : Program}

theorem checkEnd_iff : p.checkEnd = .ok () ↔
    ∃ body last, p = body ++ [last] ∧ last.isTerminal = true ∧ ∀ op ∈ body, op.isTerminal = false := by
  rcases List.eq_nil_or_concat' p with rfl | ⟨body, last, rfl⟩
  · simp [checkEnd]
  · have alone : firstTerminal? body = none ↔ ∀ op ∈ body, op.isTerminal = false := List.findIdx?_eq_none_iff
    have ends : checkEnd (body ++ [last]) = .ok () ↔
        last.isTerminal = true ∧ firstTerminal? body = none := by
      unfold checkEnd
      cases terminal : last.isTerminal <;> cases inside : firstTerminal? body <;> simp [terminal, inside]
    rw [ends, alone]
    constructor
    · rintro ⟨terminal, inside⟩
      exact ⟨body, last, rfl, terminal, inside⟩
    · rintro ⟨front, op, split, terminal, inside⟩
      obtain ⟨rfl, same⟩ := List.append_inj' split rfl
      cases List.singleton_inj.mp same
      exact ⟨terminal, inside⟩

theorem Slots.unused?_iff {s : Slots} : s.unused? = none ↔ ∀ reg slot, s reg = some slot → slot.read = true := by
  have listed : ∀ reg, reg ∈ Register.all := by
    rintro ⟨n⟩
    exact List.mem_map.mpr ⟨n.toNat, List.mem_range.mpr n.toNat_lt, by simp⟩
  simp only [unused?, List.find?_eq_none, listed, true_implies]
  refine forall_congr' fun reg => ?_
  cases s reg <;> simp

theorem validate_iff : p.validate family = .ok () ↔ p.checkEnd = .ok () ∧
    ∃ s, checkOps family 0 (fun _ => none) p = .ok s ∧ s.unused? = none := by
  unfold validate check
  cases p.checkEnd with
  | error fault => simp
  | ok =>
    cases checkOps family 0 (fun _ => none) p with
    | error fault => simp
    | ok s => cases unused : s.unused? <;> simp [unused]

/-- The check accepts exactly the well-formed programs. -/
theorem validate_iff_wellFormed (family : Family) (p : Program) :
    p.validate family = .ok () ↔ p.WellFormed family := by
  have atEnd : (Slots.behind (fun _ => none) p).unused? = none ↔
      ∀ reg width since, WrittenLast p reg width since → ∃ o ∈ since, reg ∈ o.reads := by
    rw [Slots.unused?_iff]
    refine forall_congr' fun reg => ?_
    have read := @behind_read reg p False
    simpa using read
  have followed : (∃ s, checkOps family 0 (fun _ => none) p = .ok s ∧ s.unused? = none) ↔
      (∀ front op back, p = front ++ op :: back → Admits family (Slots.behind (fun _ => none) front) op) ∧
        (Slots.behind (fun _ => none) p).unused? = none := by
    simp only [checkOps_iff, and_assoc]
    constructor
    · rintro ⟨s, admits, rfl, unused⟩
      exact ⟨admits, unused⟩
    · rintro ⟨admits, unused⟩
      exact ⟨_, admits, rfl, unused⟩
  rw [validate_iff, checkEnd_iff, followed, atEnd]
  simp only [admits_behind_iff]
  constructor
  · rintro ⟨ending, admits, usedLast⟩
    constructor
    case ending => exact ending
    case usedLast => exact usedLast
    case written => exact fun front op back split => (admits front op back split).2.1
    case operands => exact fun front op back split => (admits front op back split).2.2.1
    case used =>
      rintro front op back split reg ⟨width, written⟩
      exact ((admits front op back split).2.2.2 reg width written).2
    case fits =>
      intro op member reg width written
      obtain ⟨front, back, split⟩ := List.append_of_mem member
      exact ((admits front op back split).2.2.2 reg width written).1
    case belongs =>
      intro op member
      obtain ⟨front, back, split⟩ := List.append_of_mem member
      exact (admits front op back split).1
  · intro wellFormed
    refine ⟨wellFormed.ending, fun front op back split => ?_, wellFormed.usedLast⟩
    have member : op ∈ p := by simp [split]
    refine ⟨wellFormed.belongs op member, wellFormed.written front op back split,
      wellFormed.operands front op back split, fun reg width written => ?_⟩
    exact ⟨wellFormed.fits op member reg width written,
      wellFormed.used front op back split reg ⟨width, written⟩⟩

end Programs

end Program
end Firewall
