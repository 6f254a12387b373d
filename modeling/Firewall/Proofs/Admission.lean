import Firewall.Program.Check
import Firewall.Proofs.Rendering

namespace Firewall.Program

section Registers

variable {family : Family} {pos : Nat} {s : Slots} {reg : Register} {regs : List Register}

/-- No registers but the given ones are unread. -/
def Slots.Pending (s : Slots) (regs : List Register) : Prop :=
  ∀ r slot, s r = some slot → r ∉ regs → slot.read = true

/-- The given registers have bytes, and no others are unread. -/
structure Slots.Filled (s : Slots) (regs : List Register) : Prop where
  loaded : ∀ r ∈ regs, (s r).isSome = true
  pending : s.Pending regs

/-- A register has bytes, and no other register is unread. -/
structure Slots.Holds (s : Slots) (reg : Register) (length : Nat) : Prop where
  loaded : ∃ read, s reg = some ⟨length, read⟩
  pending : s.Pending [reg]

theorem Slots.set_self (s : Slots) (reg : Register) (slot : Slot) : s.set reg slot reg = some slot :=
  if_pos rfl

theorem Slots.set_other {r : Register} (h : r ≠ reg) (slot : Slot) : s.set reg slot r = s r :=
  if_neg h

theorem Slots.pending_none : Slots.Pending (fun _ => none) [] := by
  intro r slot h
  cases h

theorem Slots.Pending.written (h : s.Pending regs) (length : Nat) :
    (s.set reg ⟨length, false⟩).Pending (regs ++ [reg]) := by
  intro r slot found elsewhere
  have other : r ≠ reg := by
    rintro rfl
    exact elsewhere (List.mem_append_right regs List.mem_cons_self)
  rw [Slots.set_other other] at found
  exact h r slot found fun known => elsewhere (List.mem_append_left [reg] known)

/-- A register that is read is not unread any more. -/
theorem Slots.Pending.read (h : s.Pending (reg :: regs)) (length : Nat) :
    (s.set reg ⟨length, true⟩).Pending regs := by
  intro r slot found elsewhere
  by_cases here : r = reg
  · subst here
    rw [Slots.set_self] at found
    cases found
    rfl
  · rw [Slots.set_other here] at found
    refine h r slot found fun known => ?_
    rcases List.mem_cons.mp known with same | later
    · exact here same
    · exact elsewhere later

theorem Slots.write_ok (free : ∀ slot, s reg = some slot → slot.read = true) {length : Nat}
    (fits : length ≤ Register.width) (pos : Nat) :
    s.write reg length pos = .ok (s.set reg ⟨length, false⟩) := by
  have overwrites : (s reg).any (fun slot => !slot.read) = false := by
    cases found : s reg with
    | none => rfl
    | some slot => simp [free slot found]
  rw [write, overwrites, if_neg Bool.false_ne_true, if_neg (Nat.not_lt.mpr fits)]

theorem Slots.Pending.write_ok (h : s.Pending regs) {reg : Register} (fresh : reg ∉ regs) {length : Nat}
    (fits : length ≤ Register.width) (pos : Nat) :
    s.write reg length pos = .ok (s.set reg ⟨length, false⟩) :=
  Slots.write_ok (fun slot found => h reg slot found fresh) fits pos

theorem Slots.Holds.read_ok {length : Nat} (h : s.Holds reg length) (pos : Nat) :
    s.read reg pos = .ok (length, s.set reg ⟨length, true⟩) := by
  obtain ⟨read, loaded⟩ := h.loaded
  rw [Slots.read, loaded]

/-- A register that is written joins those that have bytes; the others keep theirs. -/
theorem Slots.set_loaded {r : Register} (slot : Slot) (h : r = reg ∨ (s r).isSome = true) :
    (s.set reg slot r).isSome = true := by
  by_cases here : r = reg
  · rw [here, Slots.set_self]
    rfl
  · rw [Slots.set_other here]
    exact h.resolve_left here

theorem Slots.Filled.written (h : s.Filled regs) (length : Nat) :
    (s.set reg ⟨length, false⟩).Filled (regs ++ [reg]) := by
  refine ⟨fun r hr => Slots.set_loaded _ ?_, h.pending.written length⟩
  rcases List.mem_append.mp hr with before | new
  · exact .inr (h.loaded r before)
  · exact .inl (List.mem_singleton.mp new)

theorem Slots.Filled.readAll_ok (h : s.Filled regs) (pos : Nat) :
    ∃ s', s.readAll pos regs = .ok s' ∧ s'.Pending [] := by
  induction regs generalizing s with
  | nil => exact ⟨s, rfl, h.pending⟩
  | cons r regs ih =>
    obtain ⟨slot, found⟩ := Option.isSome_iff_exists.mp (h.loaded r List.mem_cons_self)
    have later : (s.set r ⟨slot.length, true⟩).Filled regs :=
      ⟨fun q hq => Slots.set_loaded _ (.inr (h.loaded q (List.mem_cons_of_mem _ hq))),
        h.pending.read slot.length⟩
    obtain ⟨s', rest, settled⟩ := ih later
    refine ⟨s', ?_, settled⟩
    rw [readAll, Slots.read, found]
    exact rest

theorem Slots.Pending.unused_none (h : s.Pending []) : s.unused? = none := by
  rw [Slots.unused?, List.find?_eq_none]
  intro reg _
  cases found : s reg with
  | none => simp
  | some slot => simp [h reg slot found List.not_mem_nil]

end Registers

section Follows

variable {family : Family} {P Q R : Slots → Prop} {f g : Program}

/-- From registers of which `P` holds the check follows the operations to registers of which `Q` holds. -/
def Follows (family : Family) (P : Slots → Prop) (f : Program) (Q : Slots → Prop) : Prop :=
  ∀ pos s, P s → ∃ s', checkOps family pos s f = .ok s' ∧ Q s'

theorem checkOps_append (family : Family) (pos : Nat) (s : Slots) (f g : Program) :
    checkOps family pos s (f ++ g) =
      (checkOps family pos s f).bind fun s' => checkOps family (pos + f.length) s' g := by
  induction f generalizing pos s with
  | nil => rfl
  | cons op f ih =>
    rw [List.cons_append, checkOps, checkOps]
    cases checkOp family pos s op with
    | error fault => rfl
    | ok s' =>
      dsimp only
      rw [ih, List.length_cons, Nat.add_assoc, Nat.add_comm 1]

theorem Follows.append (first : Follows family P f Q) (rest : Follows family Q g R) :
    Follows family P (f ++ g) R := by
  intro pos s hs
  obtain ⟨s₁, h₁, hs₁⟩ := first pos s hs
  obtain ⟨s₂, h₂, hs₂⟩ := rest (pos + f.length) s₁ hs₁
  refine ⟨s₂, ?_, hs₂⟩
  rw [checkOps_append, h₁]
  exact h₂

theorem Follows.op {op : Op} (h : ∀ pos s, P s → ∃ s', checkOp family pos s op = .ok s' ∧ Q s') :
    Follows family P [op] Q := by
  intro pos s hs
  obtain ⟨s', ok, hs'⟩ := h pos s hs
  exact ⟨s', by rw [checkOps, ok]; rfl, hs'⟩

theorem follows_statement {op : Op} (h : ∀ pos s, checkOp family pos s op = .ok s) :
    Follows family P [op] P :=
  .op fun pos s hs => ⟨s, h pos s, hs⟩

/-- The fields that a rule of the family can load. -/
inductive Loads (family : Family) : Field → Prop where
  | metaKey (key : MetaKey) : Loads family (.metaKey key)
  | ctState : Loads family .ctState
  | transport (offset length : UInt32) : Loads family (.payload .transport offset length)
  | network {offset length : UInt32} (own : usesForeignLayout family offset length = false) :
    Loads family (.payload .network offset length)

theorem follows_load {field : Field} (loads : Loads family field)
    (fits : field.length.toNat ≤ Register.width) (reg : Register) :
    Follows family (·.Pending []) [.load field reg] (·.Holds reg field.length.toNat) := by
  refine .op fun pos s hs => ⟨s.set reg ⟨field.length.toNat, false⟩, ?_, ⟨false, s.set_self reg _⟩,
    hs.written field.length.toNat⟩
  have written : s.write reg field.length.toNat pos = _ := hs.write_ok List.not_mem_nil fits pos
  cases loads with
  | metaKey key => exact written
  | ctState => exact written
  | transport offset length => exact written
  | network own =>
    rw [checkOp, own, if_neg Bool.false_ne_true]
    exact written

/-- A mask of the width of a register leaves it unread. -/
theorem follows_mask {reg : Register} {width : Nat} {length : UInt32} {mask xor : List UInt8}
    (fits : width ≤ Register.width) (all : length.toNat = width) (masked : mask.length = width)
    (flipped : xor.length = width) :
    Follows family (·.Holds reg width) [.bitwise reg reg length mask xor] (·.Holds reg width) := by
  refine .op fun pos s hs => ⟨(s.set reg ⟨width, true⟩).set reg ⟨width, false⟩, ?_,
    ⟨false, Slots.set_self _ reg _⟩, (hs.pending.read width).written width⟩
  have written : (s.set reg ⟨width, true⟩).write reg width pos = _ :=
    (hs.pending.read width).write_ok List.not_mem_nil fits pos
  have widths : ¬ (length.toNat ≠ width ∨ mask.length ≠ length.toNat ∨ xor.length ≠ length.toNat) := by
    rw [all, masked, flipped]
    simp
  rw [checkOp, hs.read_ok]
  dsimp only
  rw [if_neg widths, all]
  exact written

/-- A register that has been compared can be compared again. -/
theorem follows_compare {reg : Register} {width : Nat} {c : Comparison} {data : List UInt8}
    (fits : data.length = width) :
    Follows family (·.Holds reg width) [.compare c reg data]
      fun s => s.Holds reg width ∧ s.Pending [] := by
  refine .op fun pos s hs => ⟨s.set reg ⟨width, true⟩, ?_, ?_⟩
  · rw [checkOp, hs.read_ok]
    dsimp only
    rw [if_neg (fun other => other fits)]
  · have settled := hs.pending.read width
    exact ⟨⟨⟨true, s.set_self reg _⟩, fun r slot found _ => settled r slot found List.not_mem_nil⟩,
      settled⟩

theorem follows_lookup {reg : Register} {width : Nat} (set : SetRef) (invert : Bool) :
    Follows family (·.Holds reg width) [.lookup reg set invert] (·.Pending []) := by
  refine .op fun pos s hs => ⟨s.set reg ⟨width, true⟩, ?_, hs.pending.read width⟩
  rw [checkOp, hs.read_ok]

theorem follows_immediate {reg : Register} {regs : List Register} {data : List UInt8} (fresh : reg ∉ regs)
    (fits : data.length ≤ Register.width) :
    Follows family (·.Filled regs) [.immediate reg data] (·.Filled (regs ++ [reg])) :=
  .op fun pos s hs =>
    ⟨s.set reg ⟨data.length, false⟩, hs.pending.write_ok fresh fits pos, hs.written data.length⟩

theorem follows_nat (kind : NatKind) (address port : Option Register) :
    Follows family (·.Filled (address.toList ++ port.toList)) [.nat kind family address port]
      (·.Pending []) := by
  refine .op fun pos s hs => ?_
  rw [checkOp, if_neg (fun other => other rfl)]
  exact hs.readAll_ok pos

theorem Follows.weaken (h : Follows family P f fun s => Q s ∧ R s) : Follows family P f R := by
  intro pos s hs
  obtain ⟨s', ok, -, hs'⟩ := h pos s hs
  exact ⟨s', ok, hs'⟩

end Follows

section Rules

variable {family : Family} {f g : Program}

/-- A fragment that any rule of the family can have in front of its end. -/
structure Continues (family : Family) (f : Program) : Prop where
  follows : Follows family (·.Pending []) f (·.Pending [])
  inside : ∀ op ∈ f, op.isTerminal = false

/-- A fragment that any rule of the family can end with. -/
structure Ends (family : Family) (f : Program) : Prop where
  follows : Follows family (·.Pending []) f (·.Pending [])
  last : ∃ front op, f = front ++ [op] ∧ op.isTerminal = true ∧ ∀ op ∈ front, op.isTerminal = false

theorem Continues.append (hf : Continues family f) (hg : Continues family g) :
    Continues family (f ++ g) := by
  refine ⟨hf.follows.append hg.follows, fun op hop => ?_⟩
  rcases List.mem_append.mp hop with first | second
  · exact hf.inside op first
  · exact hg.inside op second

theorem Continues.ends (hf : Continues family f) (hg : Ends family g) : Ends family (f ++ g) := by
  obtain ⟨front, op, rfl, terminal, inside⟩ := hg.last
  refine ⟨hf.follows.append hg.follows, f ++ front, op, (List.append_assoc f front [op]).symm, terminal,
    fun op hop => ?_⟩
  rcases List.mem_append.mp hop with first | second
  · exact hf.inside op first
  · exact inside op second

theorem Ends.validate (h : Ends family f) : f.validate family = .ok () := by
  obtain ⟨front, op, rfl, terminal, inside⟩ := h.last
  have alone : firstTerminal? front = none := by
    rw [firstTerminal?, List.findIdx?_eq_none_iff]
    exact inside
  have ending : checkEnd (front ++ [op]) = .ok () := by
    rw [checkEnd, List.getLast?_concat]
    dsimp only
    rw [terminal, List.dropLast_concat, alone]
    rfl
  obtain ⟨s, followed, settled⟩ := h.follows 0 (fun _ => none) Slots.pending_none
  rw [validate, check, ending]
  dsimp only
  rw [followed]
  dsimp only
  rw [settled.unused_none]

theorem continues_statement {op : Op} (h : ∀ pos s, checkOp family pos s op = .ok s)
    (inner : op.isTerminal = false) : Continues family [op] := by
  refine ⟨follows_statement h, fun op hop => ?_⟩
  rw [List.mem_singleton.mp hop, inner]

variable {field : Field} {reg : Register}

theorem continues_compare (loads : Loads family field) (fits : field.length.toNat ≤ Register.width)
    (c : Comparison) {data : List UInt8} (width : data.length = field.length.toNat) :
    Continues family [.load field reg, .compare c reg data] := by
  refine ⟨(follows_load loads fits reg).append (follows_compare width).weaken, ?_⟩
  simp [Op.isTerminal]

theorem continues_lookup (loads : Loads family field) (fits : field.length.toNat ≤ Register.width)
    (set : SetRef) (invert : Bool) : Continues family [.load field reg, .lookup reg set invert] := by
  refine ⟨(follows_load loads fits reg).append (follows_lookup set invert), ?_⟩
  simp [Op.isTerminal]

theorem continues_masked (loads : Loads family field) (fits : field.length.toNat ≤ Register.width)
    (c : Comparison) {length : UInt32} {mask xor data : List UInt8} (all : length = field.length)
    (masked : mask.length = field.length.toNat) (flipped : xor.length = field.length.toNat)
    (width : data.length = field.length.toNat) :
    Continues family [.load field reg, .bitwise reg reg length mask xor, .compare c reg data] := by
  have mask : Follows family (·.Holds reg field.length.toNat) [.bitwise reg reg length mask xor] _ :=
    follows_mask fits (congrArg UInt32.toNat all) masked flipped
  refine ⟨(follows_load loads fits reg).append (mask.append (follows_compare width).weaken), ?_⟩
  simp [Op.isTerminal]

theorem continues_twice (loads : Loads family field) (fits : field.length.toNat ≤ Register.width)
    (c d : Comparison) {low high : List UInt8} (widthLow : low.length = field.length.toNat)
    (widthHigh : high.length = field.length.toNat) :
    Continues family [.load field reg, .compare c reg low, .compare d reg high] := by
  have first : Follows family (·.Holds reg field.length.toNat) [.compare c reg low]
      (·.Holds reg field.length.toNat) := by
    intro pos s hs
    obtain ⟨s', ok, holds, -⟩ := follows_compare widthLow pos s hs
    exact ⟨s', ok, holds⟩
  refine ⟨(follows_load loads fits reg).append (first.append (follows_compare widthHigh).weaken), ?_⟩
  simp [Op.isTerminal]

end Rules

end Firewall.Program

namespace Firewall.Nft

open Program

section Parts

variable {family : Family} {f : Program} {part : Part} {closing : Closing} {parts : List Part}

theorem loads_address (family : Family) (dir : Direction) :
    Loads family (.payload .network (family.profile.addressOffset dir) family.profile.addressLength) := by
  apply Loads.network
  cases family <;> cases dir <;> decide

theorem loads_protocol (family : Family) :
    Loads family (.payload .network family.profile.protocolOffset protocolLength) := by
  apply Loads.network
  cases family <;> decide

theorem addressLength_fits (family : Family) :
    family.profile.addressLength.toNat ≤ Register.width := by
  cases family <;> decide

theorem interface_continues {key : MetaKey} {name : String} {invert : Bool} (hk : NamesInterface key)
    (h : Predicate.interface key name invert = .ok f) : Continues family f := by
  obtain ⟨-, short, rfl⟩ := Predicate.interface_ok h
  have width : (Field.metaKey key).length = interfaceNameLength := by
    rcases hk with rfl | rfl
    · rfl
    · rfl
  have fits : (Field.metaKey key).length.toNat ≤ Register.width := by
    rw [width]
    decide
  have padded : (Bytes.resize interfaceNameLength.toNat (Bytes.ofString name)).length =
      (Field.metaKey key).length.toNat := by
    rw [resize_short (Nat.le_of_lt short), List.length_append, List.length_replicate, width]
    omega
  exact continues_compare (.metaKey key) fits _ padded

theorem protocol_continues (family : Family) (number : UInt8) :
    Continues family (Predicate.protocol family.profile number) := by
  have fits : (Field.payload .network family.profile.protocolOffset protocolLength).length.toNat ≤
      Register.width := Nat.one_le_ofNat
  exact continues_compare (loads_protocol family) fits .eq rfl

theorem echoRequest_continues (family : Family) :
    Continues family (Predicate.echoRequest family.profile) := by
  have fits : (Field.payload .transport icmpTypeOffset icmpTypeLength).length.toNat ≤ Register.width :=
    Nat.one_le_ofNat
  exact (protocol_continues family _).append (continues_compare (.transport _ _) fits .eq rfl)

theorem port_fits (dir : Direction) :
    (Field.payload .transport (portOffset dir) portLength).length.toNat ≤ Register.width :=
  by cases dir <;> decide

theorem portRange_continues {dir : Direction} {low high : UInt16} {reg : Register}
    (h : Predicate.portRange dir low high reg = .ok f) : Continues family f := by
  unfold Predicate.portRange at h
  split at h
  · cases h
  · cases h
    exact continues_twice (.transport _ _) (port_fits dir) .ge .le (portBytes_length low)
      (portBytes_length high)

theorem address_continues {dir : Direction} {a : Address} {invert : Bool} {reg : Register}
    (h : Predicate.address family.profile dir a invert reg = .ok f) : Continues family f := by
  unfold Predicate.address at h
  split at h
  · rename_i b hb
    cases h
    obtain ⟨rfl, own⟩ := Predicate.familyAddress_ok hb
    rw [family.profile_family] at own
    refine continues_compare (loads_address family dir) (addressLength_fits family) _ ?_
    rw [Address.bytes_length, own]
    rfl
  · cases h

theorem network_continues {dir : Direction} {n : Network} {invert : Bool} {reg : Register}
    (h : Predicate.network family.profile dir n invert reg = .ok f) : Continues family f := by
  unfold Predicate.network at h
  split at h
  · rename_i own
    cases h
    rw [family.profile_family] at own
    have mask : n.mask.bytes.length = family.profile.addressLength.toNat := by
      rw [Address.bytes_length, n.mask_family, own]
    have base : n.base.bytes.length = family.profile.addressLength.toNat := by
      rw [Address.bytes_length, n.base_family, own]
    exact continues_masked (loads_address family dir) (addressLength_fits family) _ rfl mask
      List.length_replicate base
  · cases h

/-- What a builder returns for a part of a rule is in order in front of the rule's end. -/
theorem Part.continues (h : part.program family.profile = .ok f) : Continues family f := by
  cases part with
  | inputInterface name invert => exact interface_continues (.inl rfl) h
  | outputInterface name invert => exact interface_continues (.inr rfl) h
  | protocol number =>
    cases h
    exact protocol_continues family number
  | echoRequest =>
    cases h
    exact echoRequest_continues family
  | netfilterFamily =>
    cases h
    exact continues_compare (.metaKey _) Nat.one_le_ofNat .eq rfl
  | port dir number invert reg =>
    cases h
    exact continues_compare (.transport _ _) (port_fits dir) _ (portBytes_length number)
  | portRange dir low high reg => exact portRange_continues h
  | portSet dir set invert reg =>
    rw [Predicate.member_ok h]
    exact continues_lookup (.transport _ _) (port_fits dir) _ invert
  | address dir a invert reg => exact address_continues h
  | network dir n invert reg => exact network_continues h
  | addressSet dir set invert reg =>
    rw [Predicate.member_ok h]
    exact continues_lookup (loads_address family dir) (addressLength_fits family) _ invert
  | ctState states reg =>
    cases h
    exact continues_masked .ctState (by decide) .ne rfl (Bytes.ofNatHost_length 4 _) rfl rfl
  | ctStateSet set invert =>
    rw [Predicate.member_ok h]
    exact continues_lookup .ctState (by decide) _ invert
  | limit rate =>
    cases h
    exact continues_statement (fun _ _ => rfl) rfl
  | counter =>
    cases h
    exact continues_statement (fun _ _ => rfl) rfl

/-- NAT from registers that have just been filled ends a rule. -/
theorem nat_ends (kind : NatKind) (address port : Option Register) {front : Program}
    (fills : Follows family (·.Filled []) front (·.Filled (address.toList ++ port.toList)))
    (inside : ∀ op ∈ front, op.isTerminal = false) :
    Ends family (front ++ [.nat kind family address port]) := by
  refine ⟨?_, front, _, rfl, rfl, inside⟩
  intro pos s hs
  exact fills.append (follows_nat kind address port) pos s
    ⟨fun r hr => absurd hr List.not_mem_nil, hs⟩

/-- The end of a rule reads all that it writes to registers. -/
theorem Closing.ends (h : closing.program family.profile = .ok f) : Ends family f := by
  have address : ∀ {a b : Address}, Predicate.familyAddress family.profile b = .ok a →
      Follows family (·.Filled []) [.immediate Predicate.defaultRegister a.bytes]
        (·.Filled [Predicate.defaultRegister]) := by
    intro a b ha
    obtain ⟨rfl, own⟩ := Predicate.familyAddress_ok ha
    rw [family.profile_family] at own
    refine follows_immediate List.not_mem_nil ?_
    rw [Address.bytes_length, own]
    exact addressLength_fits family
  have inside : ∀ {reg : Register} (data : List UInt8), ∀ op ∈ [Op.immediate reg data],
      op.isTerminal = false := by
    intro reg data op hop
    rw [List.mem_singleton.mp hop]
    rfl
  cases closing with
  | verdict v =>
    cases h
    exact ⟨follows_statement fun _ _ => rfl, [], _, rfl, rfl, fun op hop => absurd hop List.not_mem_nil⟩
  | snat target =>
    have built : Predicate.snat family.profile target = .ok f := h
    unfold Predicate.snat at built
    split at built
    · rename_i a ha
      cases built
      rw [family.profile_family]
      exact nat_ends .source (some Predicate.defaultRegister) none (address ha) (inside _)
    · cases built
  | dnat target port =>
    have built : Predicate.dnat family.profile target port = .ok f := h
    unfold Predicate.dnat at built
    split at built
    · rename_i a ha
      cases built
      rw [family.profile_family]
      exact nat_ends .destination (some Predicate.defaultRegister) none (address ha) (inside _)
    · rename_i a number ha
      cases built
      rw [family.profile_family]
      have port : Follows family (·.Filled [Predicate.defaultRegister])
          [.immediate Predicate.portRegister (portBytes number)]
          (·.Filled [Predicate.defaultRegister, Predicate.portRegister]) := by
        refine follows_immediate (by decide) ?_
        rw [portBytes_length]
        decide
      refine nat_ends .destination (some Predicate.defaultRegister) (some Predicate.portRegister)
        ((address ha).append port) fun op hop => ?_
      rcases List.mem_append.mp hop with first | second
      · exact inside _ op first
      · exact inside _ op second
    · cases built

/-- A rule from the builders is in order for a table of its family. -/
theorem ruleProgram_ends {program : Program}
    (build : ruleProgram family.profile closing parts = .ok program) : Ends family program := by
  induction parts generalizing program with
  | nil => exact Closing.ends build
  | cons part parts ih =>
    obtain ⟨f, rest, hf, hr, rfl⟩ := ruleProgram_cons build
    exact (Part.continues hf).ends (ih hr)

end Parts

section Written

variable {table : Table} {sets : List AnonymousSet} {f program : Program} {part : Part}
  {closing : Closing} {parts : List Part}

def Part.isPortRange : Part → Bool
  | .portRange _ _ _ _ => true
  | _ => false

/-- Every other part is written, whatever it is looked up in or compared with. -/
theorem Part.renders (sets : List AnonymousSet) (h : part.program table.family.profile = .ok f)
    (single : part.isPortRange = false) : ∃ front, Renders table sets f front := by
  cases part with
  | inputInterface name invert =>
    obtain ⟨-, -, rfl⟩ := Predicate.interface_ok h
    exact ⟨_, renders_compare rfl _ _ _⟩
  | outputInterface name invert =>
    obtain ⟨-, -, rfl⟩ := Predicate.interface_ok h
    exact ⟨_, renders_compare rfl _ _ _⟩
  | protocol number =>
    cases h
    exact ⟨_, renders_compare rfl _ _ _⟩
  | echoRequest =>
    cases h
    exact ⟨_, (renders_compare rfl _ _ _).append (renders_compare rfl _ _ _)⟩
  | netfilterFamily =>
    cases h
    exact ⟨_, renders_compare rfl _ _ _⟩
  | port dir number invert reg =>
    cases h
    exact ⟨_, renders_compare rfl _ _ _⟩
  | portRange dir low high reg => cases single
  | portSet dir set invert reg =>
    rw [Predicate.member_ok h]
    exact ⟨_, renders_lookup rfl _ _ _⟩
  | address dir a invert reg =>
    have built : Predicate.address table.family.profile dir a invert reg = .ok f := h
    unfold Predicate.address at built
    split at built
    · cases built
      exact ⟨_, renders_compare rfl _ _ _⟩
    · cases built
  | network dir n invert reg =>
    have built : Predicate.network table.family.profile dir n invert reg = .ok f := h
    unfold Predicate.network at built
    split at built
    · cases built
      exact ⟨_, renders_maskedCompare rfl _ _ _ _ _ fun b hb => (List.mem_replicate.mp hb).2⟩
    · cases built
  | addressSet dir set invert reg =>
    rw [Predicate.member_ok h]
    exact ⟨_, renders_lookup rfl _ _ _⟩
  | ctState states reg =>
    cases h
    exact ⟨_, renders_maskedCompare rfl _ _ _ _ _ fun b hb => (List.mem_replicate.mp hb).2⟩
  | ctStateSet set invert =>
    rw [Predicate.member_ok h]
    exact ⟨_, renders_lookup rfl _ _ _⟩
  | limit rate =>
    cases h
    exact ⟨_, renders_statement fun _ => rfl⟩
  | counter =>
    cases h
    exact ⟨_, renders_statement fun _ => rfl⟩

/-- The register is empty when a range of ports is compared with its upper bound. -/
theorem Part.portRange_fails (sets : List AnonymousSet) (h : part.program table.family.profile = .ok f)
    (range : part.isPortRange = true) (pos : Nat) (s : Slots) (rest : Program) :
    renderOps table sets pos s (f ++ rest) = .error (.unrenderable (pos + 2) .unwritten) := by
  cases part with
  | portRange dir low high reg =>
    have built : Predicate.portRange dir low high reg = .ok f := h
    unfold Predicate.portRange at built
    split at built
    · cases built
    · cases built
      simp [renderOps, renderOp, Predicate.loadPort, Slots.set]
  | inputInterface | outputInterface | protocol | echoRequest | netfilterFamily | port | portSet | address
    | network | addressSet | ctState | ctStateSet | limit | counter => cases range

/-- A rule from the builders without a range of ports is written. -/
theorem renderOps_plain (sets : List AnonymousSet)
    (build : ruleProgram table.family.profile closing parts = .ok program)
    (single : ∀ part ∈ parts, part.isPortRange = false) (pos : Nat) (s : Slots) :
    ∃ js, renderOps table sets pos s program = .ok js := by
  induction parts generalizing program pos s with
  | nil =>
    obtain ⟨-, j, -, rendered, -⟩ := Closing.written sets build
    exact ⟨[j], rendered pos s⟩
  | cons part parts ih =>
    obtain ⟨f, rest, hf, hr, rfl⟩ := ruleProgram_cons build
    obtain ⟨first, others⟩ := List.forall_mem_cons.mp single
    obtain ⟨front, renders⟩ := Part.renders sets hf first
    obtain ⟨pos', s', rendered⟩ := renders pos s rest
    obtain ⟨js, back⟩ := ih hr others pos' s'
    refine ⟨front ++ js, ?_⟩
    rw [rendered, back]
    rfl

/-- A rule from the builders with a range of ports fails at the second comparison of the first one. -/
theorem renderOps_range (sets : List AnonymousSet)
    (build : ruleProgram table.family.profile closing parts = .ok program)
    (range : ∃ part ∈ parts, part.isPortRange = true) (pos : Nat) (s : Slots) :
    ∃ op, renderOps table sets pos s program = .error (.unrenderable op .unwritten) := by
  induction parts generalizing program pos s with
  | nil =>
    obtain ⟨part, hp, -⟩ := range
    exact absurd hp List.not_mem_nil
  | cons part parts ih =>
    obtain ⟨f, rest, hf, hr, rfl⟩ := ruleProgram_cons build
    cases first : part.isPortRange with
    | true => exact ⟨pos + 2, Part.portRange_fails sets hf first pos s rest⟩
    | false =>
      -- A part that is written leaves the registers in some state, and the range may come in any.
      have later : ∃ part ∈ parts, part.isPortRange = true := by
        obtain ⟨other, hp, ho⟩ := range
        rcases List.mem_cons.mp hp with rfl | later
        · cases first.symm.trans ho
        · exact ⟨other, later, ho⟩
      obtain ⟨front, renders⟩ := Part.renders sets hf first
      obtain ⟨pos', s', rendered⟩ := renders pos s rest
      obtain ⟨op, back⟩ := ih hr later pos' s'
      refine ⟨op, ?_⟩
      rw [rendered, back]
      rfl

end Written

/-- Every rule that the builders can put together for a table passes its check, and is written in a
document unless one of its parts is a range of ports, whose second comparison finds the register empty. -/
theorem built_rules_admitted {table : Table} {parts : List Part} {closing : Closing} {program : Program}
    (build : ruleProgram table.family.profile closing parts = .ok program) :
    program.validate table.family = .ok () ∧ ∀ sets,
      ((∀ part ∈ parts, part.isPortRange = false) → ∃ js, renderProgram table sets program = .ok js) ∧
      ((∃ part ∈ parts, part.isPortRange = true) →
        ∃ op, renderProgram table sets program = .error (.unrenderable op .unwritten)) := by
  refine ⟨(ruleProgram_ends build).validate, fun sets => ⟨fun single => ?_, fun range => ?_⟩⟩
  · exact renderOps_plain sets build single 0 fun _ => none
  · exact renderOps_range sets build range 0 fun _ => none

/-- Port 8080 is forwarded; a range of ports passes its check, but cannot be written. -/
theorem built_rules_forwarding :
    (∃ program, ruleProgram Family.ipv4.profile (.dnat (.v4 0x0A000005#32) (some 80)) forwardParts =
      .ok program ∧ program.validate .ipv4 = .ok () ∧
      ∃ js, renderProgram insideSet.table [insideSet] program = .ok js) ∧
    ∃ program, ruleProgram Family.ipv6.profile (.verdict .accept)
      [.protocol protocolTcp, .portRange .destination 1000 2000 ⟨3⟩] = .ok program ∧
      program.validate .ipv6 = .ok () ∧
      ∃ op, renderProgram ⟨.ipv6, "filter"⟩ [] program = .error (.unrenderable op .unwritten) := by
  constructor
  · have built : ∃ program, ruleProgram insideSet.table.family.profile
        (.dnat (.v4 0x0A000005#32) (some 80)) forwardParts = .ok program := ⟨_, rfl⟩
    obtain ⟨program, build⟩ := built
    obtain ⟨valid, written⟩ := built_rules_admitted build
    exact ⟨program, build, valid, (written [insideSet]).1 (by decide)⟩
  · have built : ∃ program, ruleProgram (Table.mk .ipv6 "filter").family.profile (.verdict .accept)
        [.protocol protocolTcp, .portRange .destination 1000 2000 ⟨3⟩] = .ok program := ⟨_, rfl⟩
    obtain ⟨program, build⟩ := built
    obtain ⟨valid, written⟩ := built_rules_admitted build
    have range := (written []).2 ⟨_, List.mem_cons_of_mem _ List.mem_cons_self, rfl⟩
    exact ⟨program, build, valid, range⟩

end Firewall.Nft
