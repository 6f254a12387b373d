import Firewall.Proofs.Origin

namespace Firewall

structure Span where
  header : Header
  start : Nat
  length : Nat
  deriving DecidableEq, Repr

/-- The bits of `length` bytes behind `offset` bytes. -/
def Span.ofBytes (header : Header) (offset length : Nat) : Span := ⟨header, 8 * offset, 8 * length⟩

namespace Packet

/-- The number that bits of a header spell; `none` if the header ends before they do. -/
def bits? (p : Packet) (s : Span) : Option Nat :=
  (p.header? s.header).bind fun bs =>
    if s.start + s.length ≤ 8 * bs.length then
      some ((Bytes.toNat bs >>> (8 * bs.length - (s.start + s.length))) % 2 ^ s.length)
    else none

variable {p : Packet} {header : Header} {bs : List UInt8}

theorem header?_short (h : p.header? header = some bs) : bs.length ≤ 40 := by
  cases header with
  | transport =>
    cases h
    rw [transportHeader_length]
    decide
  | network =>
    have found : p.networkHeader? = some bs := h
    unfold networkHeader? at found
    split at found
    · cases found
      simp
    · cases found
      simp
    · cases found

theorem slice?_bits (bs : List UInt8) (offset length : Nat) :
    (slice? bs offset (offset + length)).map Bytes.toNat =
      if 8 * offset + 8 * length ≤ 8 * bs.length then
        some ((Bytes.toNat bs >>> (8 * bs.length - (8 * offset + 8 * length))) % 2 ^ (8 * length))
      else none := by
  by_cases within : offset + length ≤ bs.length
  · have bits : 8 * offset + 8 * length ≤ 8 * bs.length := by omega
    have behind : 8 * bs.length - (8 * offset + 8 * length) = 8 * (bs.length - (offset + length)) := by omega
    have inner : (bs.take (offset + length)).length - offset = length := by
      rw [List.length_take]
      omega
    have cut : (bs.drop offset).take length = (bs.take (offset + length)).drop offset := by
      rw [List.drop_take, Nat.add_sub_cancel_left]
    have number := Bytes.toNat_drop (bs.take (offset + length)) offset
    rw [← cut, inner, Bytes.toNat_take bs] at number
    rw [slice?, if_pos ⟨Nat.le_add_right _ _, within⟩, if_pos bits, Nat.add_sub_cancel_left, Option.map_some,
      number, behind, Nat.shiftRight_eq_div_pow, Nat.pow_mul, Nat.pow_mul]
  · have beyond : ¬8 * offset + 8 * length ≤ 8 * bs.length := by omega
    rw [slice?, if_neg fun both => within both.2, if_neg beyond]
    rfl

/-- A load finds the bytes that it names. If their end is no number of 32 bits, it is before their start then,
and the load finds nothing, like any other behind the end of the header. -/
theorem field?_bits (p : Packet) (header : Header) (offset length : UInt32) :
    (p.field? (.payload header offset length)).map Bytes.toNat =
      p.bits? (.ofBytes header offset.toNat length.toNat) := by
  cases found : p.header? header with
  | none =>
    rw [field?, bits?]
    show ((p.header? header).bind _).map _ = (p.header? header).bind _
    rw [found]
    rfl
  | some bs =>
    have few := header?_short found
    have loaded : p.field? (.payload header offset length) =
        slice? bs offset.toNat (offset + length).toNat := by
      rw [field?, found]
      rfl
    have read : p.bits? (.ofBytes header offset.toNat length.toNat) =
        (slice? bs offset.toNat (offset.toNat + length.toNat)).map Bytes.toNat := by
      rw [slice?_bits, bits?]
      show (p.header? header).bind _ = _
      rw [found]
      rfl
    rw [loaded, read]
    by_cases fits : offset.toNat + length.toNat < 2 ^ 32
    · rw [UInt32.toNat_add, Nat.mod_eq_of_lt fits]
    · have bounds : offset.toNat < 2 ^ 32 ∧ length.toNat < 2 ^ 32 := ⟨offset.toNat_lt, length.toNat_lt⟩
      have wrapped : (offset + length).toNat < offset.toNat := by
        rw [UInt32.toNat_add]
        omega
      rw [slice?, slice?, if_neg (by omega), if_neg (by omega)]

end Packet

def Op.asked? : Op → Option Register
  | .compare _ reg _ | .lookup reg _ _ => some reg
  | .load _ _ | .bitwise _ _ _ _ _ | .immediate _ _ | .nat _ _ _ _ | .limit _ | .counter | .verdict _ => none

namespace Program

section Loads

variable {family : Family} {field : Field} {reg : Register} {program : Program}

theorem checkOp_loads {pos : Nat} {s s' : Slots}
    (h : checkOp family pos s (.load field reg) = .ok s') :
    Loads family field ∧ field.length.toNat ≤ Register.width := by
  refine ⟨?_, (Slots.write_inv (checkOp_load h)).1⟩
  cases field with
  | metaKey key => exact .metaKey key
  | ctState => exact .ctState
  | payload header offset length =>
    cases header with
    | transport => exact .transport offset length
    | network =>
      rw [checkOp] at h
      split at h
      · cases h
      · rename_i own
        exact .network (Bool.eq_false_iff.mpr own)

/-- A checked program loads what its family may load, and no more than a register holds. -/
theorem validate_loads (checked : program.validate family = .ok ()) (member : .load field reg ∈ program) :
    Loads family field ∧ field.length.toNat ≤ Register.width := by
  obtain ⟨body, last, s, whole, -, -, followed⟩ := validate_ok checked
  obtain ⟨front, rest, split⟩ := List.append_of_mem member
  rw [split] at followed
  obtain ⟨s₁, -, behind⟩ := checkOps_split followed
  rw [checkOps] at behind
  split at behind
  · rename_i s₂ here
    exact checkOp_loads here
  · cases behind

def blankRule (field : Field) : Program :=
  [.load field ⟨1⟩, .compare .eq ⟨1⟩ (List.replicate field.length.toNat 0), .verdict .accept]

theorem blankRule_checked (loads : Loads family field) (fits : field.length.toNat ≤ Register.width) :
    (blankRule field).validate family = .ok () := by
  have ends : Ends family [.verdict .accept] :=
    ⟨follows_statement fun _ _ => rfl, [], _, rfl, rfl, fun op member => absurd member List.not_mem_nil⟩
  exact ((continues_compare loads fits .eq List.length_replicate).ends ends).validate

end Loads

end Program

namespace Nft

open Program

section Reading

/-- Where nftables finds the header fields that it has a name for. -/
def fieldSpan? : Family → Meaning → Option Span
  | .ipv4, .address .source => some ⟨.network, 96, 32⟩
  | .ipv4, .address .destination => some ⟨.network, 128, 32⟩
  | .ipv4, .protocol => some ⟨.network, 72, 8⟩
  | .ipv6, .address .source => some ⟨.network, 64, 128⟩
  | .ipv6, .address .destination => some ⟨.network, 192, 128⟩
  | .ipv6, .protocol => some ⟨.network, 48, 8⟩
  | _, .port .source => some ⟨.transport, 0, 16⟩
  | _, .port .destination => some ⟨.transport, 16, 16⟩
  | _, .icmpType => some ⟨.transport, 0, 8⟩
  | _, .metaKey _ | _, .ctState | _, .raw _ _ _ => none

def bases : List (String × Header) := [("nh", .network), ("th", .transport)]

/-- The bits that a left side names by their place: a base, an offset and a length. -/
def placeOf? (left : Json) : Option Span :=
  (left.get? "payload").bind fun payload =>
    ((stringAt? "base" payload).bind fun base => bases.lookup base).bind fun header =>
      ((payload.get? "offset").bind Json.nat?).bind fun start =>
        ((payload.get? "len").bind Json.nat?).map fun length => ⟨header, start, length⟩

/-- The bits of a header that a left side asks about, by their place or by the name of a field. -/
def spanOf? (family : Family) (left : Json) : Option Span :=
  match placeOf? left with
  | some span => some span
  | none => (fieldOf? family left).bind (fieldSpan? family)

/-- The field that a match asks about, under a mask or not. -/
def askedField? (statement : Json) : Option Json :=
  ((statement.get? "match").bind (Json.get? "left")).bind fun left =>
    match left.get? "&" with
    | some masked => masked.items?.bind List.head?
    | none => some left

end Reading

section Rendering

variable {table : Table} {sets : List AnonymousSet} {header : Header} {offset length : UInt32}

/-- The bits before that many bytes, as a number of 32 bits. -/
theorem toNat_bits (bytes : UInt32) : (bytes * 8).toNat = 8 * (bytes.toNat % 2 ^ 29) := by
  rw [UInt32.toNat_mul]
  show bytes.toNat * 8 % 2 ^ 32 = _
  omega

theorem spanOf?_load (family : Family) (header : Header) (offset length : UInt32) :
    spanOf? family (Meaning.expr family.profile (.of family.profile (.payload header offset length))) =
      some ⟨header, (offset * 8).toNat, (length * 8).toNat⟩ := by
  have field := loaded_of family (.payload header offset length)
  generalize Meaning.of family.profile (.payload header offset length) = m at field ⊢
  cases m with
  | metaKey | ctState => cases field
  | address dir =>
    cases field
    cases family <;> cases dir <;> rfl
  | protocol | icmpType =>
    cases field
    cases family <;> rfl
  | port dir =>
    cases field
    cases family <;> cases dir <;> rfl
  | raw header offset length =>
    cases field
    cases header <;> rfl

theorem expr_unmasked (p : Profile) (m : Meaning) : (m.expr p).get? "&" = none := by
  cases m with
  | address dir | port dir => cases dir <;> rfl
  | metaKey | ctState | protocol | icmpType | raw => rfl

theorem askedField?_plain (p : Profile) (m : Meaning) (op : String) (right : Json) :
    askedField? (matchStatement op (m.expr p) right) = some (m.expr p) := by
  show (match (m.expr p).get? "&" with
    | some masked => masked.items?.bind List.head?
    | none => some (m.expr p)) = _
  rw [expr_unmasked]

theorem askedField?_compare (p : Profile) (c : Comparison) (m : Meaning) (mask : Option (List UInt8))
    (data : List UInt8) : askedField? (compareStatement p c m mask data) = some (m.expr p) := by
  cases mask with
  | none =>
    rw [compareStatement_plain]
    exact askedField?_plain p m _ _
  | some mask =>
    cases m with
    | address dir => exact askedField?_plain p _ _ _
    | ctState =>
      rw [compareStatement]
      split
      · exact askedField?_plain p _ _ _
      · rfl
    | metaKey | protocol | port | icmpType | raw => rfl

/-- The statement of an operation that asks about a register is about the field that its bytes come from. -/
theorem renders_question {program front rest : Program} {op : Op} {reg : Register} {js : List Json}
    (rendered : renderProgram table sets program = .ok js) (split : program = front ++ op :: rest)
    (asks : op.asked? = some reg) :
    ∃ before j behind x, renderProgram table sets front = .ok before ∧ js = before ++ j :: behind ∧
      origin? front reg = some x ∧
      askedField? j = some (Meaning.expr table.family.profile (.of table.family.profile x.field)) := by
  cases op with
  | compare c q data =>
    cases asks
    obtain ⟨before, behind, x, first, rfl, held, -⟩ := renders_comparison rendered split
    exact ⟨before, _, behind, x, first, rfl, held, askedField?_compare _ _ _ _ _⟩
  | lookup q set invert =>
    cases asks
    obtain ⟨before, behind, x, first, rfl, held, -⟩ := renders_membership rendered split
    exact ⟨before, _, behind, x, first, rfl, held, askedField?_plain _ _ _ _⟩
  | load | bitwise | immediate | nat | limit | counter | verdict => cases asks

end Rendering

/-- A payload load of a checked program has a bounded length, and at any offset within the layout of the
family there is one in a checked program that is rendered. Its length in bits is a number of 32 bits; its end
and its offset in bits need not be. The machine finds the bytes that the load names all the same. The statement
for a question about them asks about these bits if the offset is below 2 ^ 29, and else about those that many
bytes before. -/
theorem payload_loads (table : Table) (header : Header) (offset length : UInt32) :
    ((∃ program reg js, program.validate table.family = .ok () ∧
        .load (.payload header offset length) reg ∈ program ∧ renderProgram table [] program = .ok js) ↔
      Loads table.family (.payload header offset length) ∧ length.toNat ≤ Register.width) ∧
    ∀ program reg, program.validate table.family = .ok () →
      .load (.payload header offset length) reg ∈ program →
      (length * 8).toNat = 8 * length.toNat ∧
      ((offset + length).toNat = offset.toNat + length.toNat ↔ offset.toNat + length.toNat < 2 ^ 32) ∧
      ((offset * 8).toNat = 8 * offset.toNat ↔ offset.toNat < 2 ^ 29) ∧
      (∀ p : Packet, (p.field? (.payload header offset length)).map Bytes.toNat =
        p.bits? (.ofBytes header offset.toNat length.toNat)) ∧
      ∀ sets js front op rest q x, renderProgram table sets program = .ok js →
        program = front ++ op :: rest → op.asked? = some q → origin? front q = some x →
        x.field = .payload header offset length →
        ∃ before j behind left, renderProgram table sets front = .ok before ∧ js = before ++ j :: behind ∧
          askedField? j = some left ∧ spanOf? table.family left =
            some (.ofBytes header (offset.toNat % 2 ^ 29) length.toNat) := by
  refine ⟨⟨?_, ?_⟩, ?_⟩
  · rintro ⟨program, reg, js, checked, member, -⟩
    exact validate_loads checked member
  · rintro ⟨loads, fits⟩
    exact ⟨_, _, _, blankRule_checked loads fits, List.mem_cons_self, rfl⟩
  · intro program reg checked member
    have fits : length.toNat ≤ 16 := (validate_loads checked member).2
    have bounds : offset.toNat < 2 ^ 32 := offset.toNat_lt
    have lengthBits : (length * 8).toNat = 8 * length.toNat := by
      rw [toNat_bits, Nat.mod_eq_of_lt (by omega)]
    refine ⟨lengthBits, ?_, ?_, fun p => p.field?_bits header offset length, ?_⟩
    · rw [UInt32.toNat_add]
      omega
    · rw [toNat_bits]
      omega
    · intro sets js front op rest q x rendered split asks held field
      obtain ⟨before, j, behind, y, first, whole, same, asked⟩ := renders_question rendered split asks
      cases held.symm.trans same
      refine ⟨before, j, behind, _, first, whole, asked, ?_⟩
      rw [field, spanOf?_load, toNat_bits offset, lengthBits]
      rfl

def farRule : Program :=
  [.load (.payload .transport 0x20000002 2) ⟨1⟩, .compare .eq ⟨1⟩ [1, 187], .verdict .accept]

theorem payload_loads_far :
    farRule.validate .ipv4 = .ok () ∧
    networkPacket.bits? (.ofBytes .transport 0x20000002 2) = none ∧
    farRule.evaluate networkMembers networkPacket = .noMatch ∧
    (∃ j js left, renderProgram ⟨.ipv4, "filter"⟩ [] farRule = .ok (j :: js) ∧
      askedField? j = some left ∧ spanOf? .ipv4 left = some (.ofBytes .transport 2 2)) ∧
    networkPacket.bits? (.ofBytes .transport 2 2) = some 443 := by
  have checked : farRule.validate .ipv4 = .ok () := by decide
  obtain ⟨-, accepted⟩ := payload_loads ⟨.ipv4, "filter"⟩ .transport 0x20000002 2
  obtain ⟨-, -, -, found, shown⟩ := accepted farRule ⟨1⟩ checked List.mem_cons_self
  refine ⟨checked, ?_, by decide, ?_, by decide⟩
  · exact (found networkPacket).symm.trans rfl
  · obtain ⟨js, rendered⟩ : ∃ js, renderProgram ⟨.ipv4, "filter"⟩ [] farRule = .ok js := ⟨_, rfl⟩
    obtain ⟨before, j, behind, left, first, rfl, asked, span⟩ := shown [] js _ _ _ ⟨1⟩
      ⟨.payload .transport 0x20000002 2, []⟩ rendered
      (show farRule = [.load _ _] ++ .compare .eq ⟨1⟩ [1, 187] :: [.verdict .accept] from rfl) rfl rfl rfl
    cases first
    exact ⟨j, behind, left, rendered, asked, span⟩

end Nft
end Firewall
