import Firewall.Proofs.MaskedMatch

namespace Firewall.Nft

open Program

section Fields

variable {family : Family} {m : Meaning} {p : Packet}

/-- Whether nftables looks for a field in a packet: it takes the type of a message from messages only. -/
def Meaning.isIn (p : Packet) : Meaning → Bool
  | .icmpType => p.protocol == p.family.profile.icmpProtocol
  | _ => true

/-- Whether the bits of a field are written with the place that they have. -/
def Meaning.isPlaced : Meaning → Bool
  | .raw _ offset _ => offset.toNat < 2 ^ 29
  | _ => true

/-- A packet has the same number of a field and of the operand that it is written as. -/
theorem number?_loaded (wf : p.wellFormed = true) (same : p.family = family) (there : m.isIn p = true)
    (placed : m.isPlaced = true) (fits : (m.loaded family).length.toNat ≤ Register.width) :
    m.operand.number? p = (p.field? (m.loaded family)).map (Bytes.number m.inHostOrder) := by
  subst same
  cases m with
  | metaKey | ctState => rfl
  | address dir =>
    rw [Meaning.loaded, p.field?_address wf]
    rfl
  | protocol =>
    rw [Meaning.loaded, p.field?_protocol wf]
    rfl
  | port dir =>
    rw [Meaning.loaded, p.field?_port]
    rfl
  | icmpType =>
    have message : p.protocol = p.family.profile.icmpProtocol := eq_of_beq there
    rw [Meaning.loaded, p.field?_icmpType, p.icmpType_eq message]
    show (Meaning.icmpType.valueIn? p).map (Bytes.number false) = _
    rw [Meaning.valueIn?, if_pos message]
    rfl
  | raw header offset length =>
    have start : offset.toNat < 2 ^ 29 := of_decide_eq_true placed
    have few : length.toNat ≤ 16 := fits
    show p.bits? ⟨header, _, _⟩ = (p.field? (.payload header offset length)).map Bytes.toNat
    rw [p.field?_bits, toNat_bits, toNat_bits, Nat.mod_eq_of_lt start, Nat.mod_eq_of_lt (by omega)]
    rfl

theorem number?_outside (absent : m.isIn p = false) : m.operand.number? p = none := by
  cases m with
  | icmpType =>
    have other : p.protocol ≠ p.family.profile.icmpProtocol := by simpa [Meaning.isIn] using absent
    show (Meaning.icmpType.valueIn? p).map (Bytes.number false) = none
    rw [Meaning.valueIn?, if_neg other]
    rfl
  | metaKey | ctState | address | protocol | port | raw => cases absent

/-- Whether a field takes all values of its width in packets of every family. -/
def Meaning.isFree : Meaning → Bool
  | .address _ | .protocol | .port _ | .icmpType | .ctState | .metaKey .protocol => true
  | _ => false

def plainPacket (a : Address) (protocol : UInt8) (port : UInt16) (type : UInt8) (state : UInt32) : Packet :=
  ⟨none, none, protocol, a, a, port, port, type, 0, state⟩

theorem exists_packet (family : Family) (free : m.isFree = true) {n : Nat}
    (small : n < 2 ^ (8 * (m.loaded family).length.toNat)) :
    ∃ p : Packet, p.wellFormed = true ∧ p.family = family ∧ m.isIn p = true ∧ m.operand.number? p = some n := by
  obtain ⟨a, own⟩ := Address.exists_family family
  have wf : ∀ (a : Address) protocol port type state,
      (plainPacket a protocol port type state).wellFormed = true := fun a _ _ _ _ => beq_self_eq_true a.family
  have byte : ∀ {n : Nat}, n < 2 ^ 8 → Bytes.number false [UInt8.ofNat n] = n := by
    intro n small
    show Bytes.toNat (Bytes.ofNat 1 n) = n
    exact Bytes.toNat_ofNat_of_lt small
  cases m with
  | metaKey key =>
    cases key with
    | protocol =>
      refine ⟨plainPacket a (UInt8.ofNat n) 0 0 0, wf _ _ _ _ _, own, rfl, ?_⟩
      exact congrArg some (byte small)
    | inputInterface | outputInterface | netfilterFamily => cases free
  | ctState =>
    refine ⟨plainPacket a 0 0 0 (UInt32.ofNat n), wf _ _ _ _ _, own, rfl, congrArg some ?_⟩
    have state : (UInt32.ofNat n).toNat = n := by
      rw [UInt32.toNat_ofNat']
      exact Nat.mod_eq_of_lt small
    show Bytes.toNatHost (Bytes.ofNatHost 4 (UInt32.ofNat n).toNat) = n
    rw [state]
    exact Bytes.toNatHost_ofNatHost_of_lt small
  | address dir =>
    have length : (Bytes.ofNat family.keyType.length n).length = family.keyType.length := Bytes.ofNat_length _ _
    obtain ⟨b, own, spelled⟩ := Address.exists_bytes length
    refine ⟨plainPacket b 0 0 0 0, wf _ _ _ _ _, own, rfl, congrArg some ?_⟩
    have here : (plainPacket b 0 0 0 0).address dir = b := by cases dir <;> rfl
    show Bytes.toNat ((plainPacket b 0 0 0 0).address dir).bytes = n
    rw [here, spelled]
    refine Bytes.toNat_ofNat_of_lt ?_
    cases family <;> exact small
  | protocol =>
    refine ⟨plainPacket a (UInt8.ofNat n) 0 0 0, wf _ _ _ _ _, own, rfl, ?_⟩
    exact congrArg some (byte small)
  | port dir =>
    have other : (plainPacket a 6 (UInt16.ofNat n) 0 0).protocol ≠
        (plainPacket a 6 (UInt16.ofNat n) 0 0).family.profile.icmpProtocol := by
      cases family <;> (show (6 : UInt8) ≠ a.family.profile.icmpProtocol; rw [own]; decide)
    refine ⟨plainPacket a 6 (UInt16.ofNat n) 0 0, wf _ _ _ _ _, own, rfl, congrArg some ?_⟩
    have number : ((plainPacket a 6 (UInt16.ofNat n) 0 0).port dir).toNat = n := by
      have same : (plainPacket a 6 (UInt16.ofNat n) 0 0).port dir = UInt16.ofNat n := by cases dir <;> rfl
      rw [same, UInt16.toNat_ofNat']
      exact Nat.mod_eq_of_lt small
    show Bytes.toNat ((plainPacket a 6 (UInt16.ofNat n) 0 0).portField dir) = n
    rw [Packet.portField_eq other, number]
    exact Bytes.toNat_ofNat_of_lt small
  | icmpType =>
    have message : (plainPacket a family.profile.icmpProtocol 0 (UInt8.ofNat n) 0).protocol =
        (plainPacket a family.profile.icmpProtocol 0 (UInt8.ofNat n) 0).family.profile.icmpProtocol := by
      show family.profile.icmpProtocol = a.family.profile.icmpProtocol
      rw [own]
    refine ⟨plainPacket a family.profile.icmpProtocol 0 (UInt8.ofNat n) 0, wf _ _ _ _ _, own,
      beq_iff_eq.mpr message, ?_⟩
    show (Meaning.icmpType.valueIn? _).map (Bytes.number false) = some n
    rw [Meaning.valueIn?, if_pos message]
    exact congrArg some (byte small)
  | raw => cases free

end Fields

section Comparisons

variable {family : Family} {members : Members} {p : Packet} {c : Comparison} {x : Origin}
  {mask data : List UInt8}

/-- What the field of a register means in tables of a family. -/
def meaning (family : Family) (x : Origin) : Meaning := .of family.profile x.field

/-- Whether a comparison of a field means the same for its bytes and for the number that nftables takes it for:
connection states have another order as numbers of the host. -/
def ordered (c : Comparison) (m : Meaning) : Bool := !m.inHostOrder || c.isEquality

/-- The statement for a comparison says what the program asks, of which it shows the last mask: both tests agree
on all values of the field, which nftables takes from where the program loads it. -/
structure Faithful (family : Family) (c : Comparison) (x : Origin) (mask data : List UInt8) : Prop where
  understood : understood c (meaning family x) = true
  ordered : ordered c (meaning family x) = true
  placed : (meaning family x).isPlaced = true
  agree : ∀ n < 2 ^ (8 * data.length), (shownTest c (meaning family x) mask data).holds c n =
    (x.test (meaning family x).inHostOrder data).holds c n

theorem shownTest_fits {m : Meaning} (width : mask.length = data.length) :
    (shownTest c m mask data).Fits (8 * data.length) := by
  have plain : BitTest.Fits ⟨Bytes.toNat mask, Bytes.toNat data⟩ (8 * data.length) :=
    ⟨width ▸ Bytes.number_lt false mask, Bytes.number_lt false data⟩
  cases m with
  | address dir =>
    have kept : (prefixMask (8 * mask.length) (maskOnes mask)).toNat < 2 ^ (8 * data.length) := by
      rw [← width]
      exact BitVec.isLt _
    exact ⟨kept, Nat.lt_of_le_of_lt Nat.and_le_right kept⟩
  | ctState =>
    rw [shownTest]
    split
    · exact ⟨width ▸ Bytes.number_lt true mask, Nat.two_pow_pos _⟩
    · exact plain
  | metaKey | protocol | port | icmpType | raw => exact plain

/-- The statement for a comparison under masks is read as the test that it shows. -/
theorem passes?_comparison (wf : p.wellFormed = true) (same : p.family = family)
    (wide : x.field.length.toNat = data.length) (width : mask.length = data.length)
    (meant : understood c (meaning family x) = true) :
    passes? family members p (compareStatement family.profile c (meaning family x) (some mask) data) =
      some (((meaning family x).operand.number? p).any ((shownTest c (meaning family x) mask data).holds c)) := by
  have field : (meaning family x).loaded family = x.field := loaded_of family x.field
  refine passes?_shown meant ?_ ?_ ?_ width
  · intro dir address
    rw [address] at field
    rw [← wide, ← field]
    cases family <;> rfl
  · intro dir value address found
    rw [address] at field found
    cases found
    rw [← wide, ← field, Address.bytes_length, Packet.address_family wf, same]
    rfl
  · intro states
    rw [states] at field
    rw [width, ← wide, ← field]
    rfl

theorem equality_of_ordered {m : Meaning} (h : ordered c m = true) (host : m.inHostOrder = true) :
    c.isEquality = true := by
  rw [ordered, host] at h
  exact h

/-- As to equality, a statement is faithful if all masks together are the mask that it shows, and the data are
the value, or if neither it nor the program asks for what a field can hold. -/
theorem faithful_iff (equality : c.isEquality = true) (wide : x.Wide data.length)
    (width : mask.length = data.length) :
    Faithful family c x mask data ↔
      (meaning family x).isInterface = false ∧ (meaning family x).isPlaced = true ∧
        BitTest.Alike c (shownTest c (meaning family x) mask data)
          (x.test (meaning family x).inHostOrder data) := by
  have meant : understood c (meaning family x) = !(meaning family x).isInterface := by
    cases meaning family x with
    | address dir => exact equality
    | metaKey | ctState | protocol | port | icmpType | raw => rfl
  constructor
  · intro faithful
    refine ⟨by simpa [meant] using faithful.understood, faithful.placed, ?_⟩
    by_contra apart
    obtain ⟨n, small, differ⟩ := BitTest.exists_differ (shownTest_fits width) (x.test_fits wide _) equality apart
    exact differ (faithful.agree n small)
  · rintro ⟨number, placed, alike⟩
    exact ⟨by rw [meant, number]; rfl, by rw [ordered, equality, Bool.or_true], placed,
      fun n _ => BitTest.holds_alike alike n⟩

theorem passes?_faithful (faithful : Faithful family c x mask data) (wf : p.wellFormed = true)
    (same : p.family = family) (wide : x.Wide data.length) (fits : data.length ≤ Register.width)
    (plain : x.Plain) (width : mask.length = data.length) :
    passes? family members p (compareStatement family.profile c (meaning family x) (some mask) data) =
      some ((meaning family x).isIn p && x.asks c data p) := by
  have field : (meaning family x).loaded family = x.field := loaded_of family x.field
  rw [passes?_comparison wf same wide.1 width faithful.understood]
  cases there : (meaning family x).isIn p with
  | false => rw [number?_outside there, Option.any_none, Bool.false_and]
  | true =>
    have number := number?_loaded wf same there faithful.placed (by rw [field, wide.1]; exact fits)
    rw [Bool.true_and, Origin.asks_eq wide plain (equality_of_ordered faithful.ordered), number, field]
    cases found : p.field? x.field with
    | none => rfl
    | some bs =>
      have length : bs.length = data.length := (Packet.field?_length found).trans wide.1
      exact congrArg some (faithful.agree _ (length ▸ Bytes.number_lt _ bs))

theorem passes?_unfaithful (unfaithful : ¬Faithful family c x mask data)
    (meant : understood c (meaning family x) = true) (numeric : ordered c (meaning family x) = true)
    (free : (meaning family x).isFree = true) (wide : x.Wide data.length) (fits : data.length ≤ Register.width)
    (plain : x.Plain) (width : mask.length = data.length) :
    ∃ p, p.wellFormed = true ∧ p.family = family ∧ ∀ members, passes? family members p
      (compareStatement family.profile c (meaning family x) (some mask) data) ≠ some (x.asks c data p) := by
  have field : (meaning family x).loaded family = x.field := loaded_of family x.field
  have placed : (meaning family x).isPlaced = true := by
    cases m : meaning family x with
    | raw header offset length =>
      rw [m] at free
      cases free
    | metaKey | ctState | address | protocol | port | icmpType => rfl
  obtain ⟨n, small, differ⟩ : ∃ n < 2 ^ (8 * data.length), (shownTest c (meaning family x) mask data).holds c n ≠
      (x.test (meaning family x).inHostOrder data).holds c n := by
    by_contra never
    refine unfaithful ⟨meant, numeric, placed, fun n small => ?_⟩
    by_contra differ
    exact never ⟨n, small, differ⟩
  have bits : 8 * data.length = 8 * ((meaning family x).loaded family).length.toNat := by rw [field, wide.1]
  obtain ⟨p, wf, same, there, number⟩ := exists_packet family free (bits ▸ small)
  have loaded := number?_loaded wf same there placed (by rw [field, wide.1]; exact fits)
  refine ⟨p, wf, same, fun members agreed => differ ?_⟩
  rw [passes?_comparison wf same wide.1 width meant, Origin.asks_eq wide plain (equality_of_ordered numeric),
    ← field, ← loaded, number] at agreed
  exact Option.some.inj agreed

/-- A masked comparison in a checked program that is rendered is one statement. If it is faithful, it lets
exactly the packets pass of which the comparison holds when the machine comes to it; only, it takes the type of a
message from messages of the family's ICMP. As to equality it is faithful if all masks together are the one that
it shows. If it is not, it means nothing, as with an interface or an order of networks, or there is a packet that
it decides otherwise, on each field that takes all values and has the order of its bytes. A statement with a
meaning lets exactly the packets pass whose number passes the test that it shows, faithful or not: also for an
order of connection states and on the fields that are left. -/
theorem masked_comparison {table : Table} {sets : List AnonymousSet} {program front rest : Program}
    {reg : Register} {js : List Json} (checked : program.validate table.family = .ok ())
    (rendered : renderProgram table sets program = .ok js)
    (split : program = front ++ .compare c reg data :: rest) (held : origin? front reg = some x)
    (masked : x.masks ≠ []) :
    ∃ before j behind mask, renderProgram table sets front = .ok before ∧ js = before ++ j :: behind ∧
      x.masks.head?.map Prod.fst = some mask ∧
      (∀ members p r, pass members p .empty front = some r →
        (Op.compare c reg data).step members p r = .guard (x.asks c data p) r) ∧
      (Faithful table.family c x mask data → ∀ members p, p.wellFormed = true → p.family = table.family →
        passes? table.family members p j = some ((meaning table.family x).isIn p && x.asks c data p)) ∧
      (c.isEquality = true → (Faithful table.family c x mask data ↔
        (meaning table.family x).isInterface = false ∧ (meaning table.family x).isPlaced = true ∧
          BitTest.Alike c (shownTest c (meaning table.family x) mask data)
            (x.test (meaning table.family x).inHostOrder data))) ∧
      (understood c (meaning table.family x) = false → ∀ members p, passes? table.family members p j = none) ∧
      (understood c (meaning table.family x) = true → ∀ members p, p.wellFormed = true → p.family = table.family →
        passes? table.family members p j = some (((meaning table.family x).operand.number? p).any
          ((shownTest c (meaning table.family x) mask data).holds c))) ∧
      (¬Faithful table.family c x mask data → understood c (meaning table.family x) = true →
        ordered c (meaning table.family x) = true → (meaning table.family x).isFree = true →
        ∃ p, p.wellFormed = true ∧ p.family = table.family ∧
          ∀ members, passes? table.family members p j ≠ some (x.asks c data p)) := by
  obtain ⟨before, behind, y, first, whole, same, plain⟩ := renders_comparison rendered split
  cases held.symm.trans same
  obtain ⟨wide, fits⟩ := compare_wide checked split held
  obtain ⟨m, masks, last⟩ := List.exists_cons_of_ne_nil masked
  have shown : x.masks.head?.map Prod.fst = some m.1 := by rw [last]; rfl
  have width : m.1.length = data.length := (wide.2 m (last ▸ List.mem_cons_self)).1
  rw [shown] at whole
  refine ⟨before, _, behind, m.1, first, whole, shown, ?_, ?_, ?_, ?_, ?_, ?_⟩
  · intro members p r passed
    exact Origin.step_compare passed held
  · intro faithful members p wf own
    exact passes?_faithful faithful wf own wide fits plain width
  · intro equality
    exact faithful_iff equality wide width
  · intro unknown members p
    exact passes?_nothing unknown
  · intro meant members p wf own
    exact passes?_comparison wf own wide.1 width meant
  · intro unfaithful meant numeric free
    exact passes?_unfaithful unfaithful meant numeric free wide fits plain width

end Comparisons

section Ports

def maskPort (first second : List UInt8) : Program :=
  [.load (.payload .transport 2 2) ⟨1⟩, .bitwise ⟨1⟩ ⟨1⟩ 2 first [0, 0], .bitwise ⟨1⟩ ⟨1⟩ 2 second [0, 0]]

def maskedPorts (first second data : List UInt8) (c : Comparison) : Program :=
  maskPort first second ++ [.compare c ⟨1⟩ data, .verdict .accept]

/-- Where the register comes from that is compared. -/
def maskedOrigin (first second : List UInt8) : Origin :=
  ⟨.payload .transport 2 2, [(second, [0, 0]), (first, [0, 0])]⟩

/-- The first mask is lost if the second does not say the same: of `15, 240` only `15, 0` is left. -/
theorem masked_comparison_ports :
    ((maskedPorts [255, 240] [255, 0] [1, 0] .ge).validate .ipv4 = .ok () ∧
      ∃ j js, renderProgram ⟨.ipv4, "filter"⟩ [] (maskedPorts [255, 240] [255, 0] [1, 0] .ge) = .ok (j :: js) ∧
        passes? .ipv4 networkMembers networkPacket j = some true) ∧
    (maskedPorts [255, 0] [15, 240] [1, 0] .eq).validate .ipv4 = .ok () ∧
      ∃ j js, renderProgram ⟨.ipv4, "filter"⟩ [] (maskedPorts [255, 0] [15, 240] [1, 0] .eq) = .ok (j :: js) ∧
        ∃ p, p.wellFormed = true ∧ p.family = .ipv4 ∧ ∀ members,
          passes? .ipv4 members p j ≠ some ((maskedOrigin [255, 0] [15, 240]).asks .eq [1, 0] p) := by
  have halves : (maskedPorts [255, 240] [255, 0] [1, 0] .ge).validate .ipv4 = .ok () := by decide
  have holes : (maskedPorts [255, 0] [15, 240] [1, 0] .eq).validate .ipv4 = .ok () := by decide
  have rendered : ∀ first second c, ∃ js,
      renderProgram ⟨.ipv4, "filter"⟩ [] (maskedPorts first second [1, 0] c) = .ok js :=
    fun first second c => ⟨_, rfl⟩
  refine ⟨⟨halves, ?_⟩, holes, ?_⟩
  · obtain ⟨js, written⟩ := rendered [255, 240] [255, 0] .ge
    obtain ⟨before, j, behind, mask, first, rfl, last, -, exact, -⟩ := masked_comparison halves written rfl
      (x := maskedOrigin [255, 240] [255, 0]) rfl (List.cons_ne_nil _ _)
    cases first
    cases last
    have same : shownTest .ge (meaning .ipv4 (maskedOrigin [255, 240] [255, 0])) [255, 0] [1, 0] =
        (maskedOrigin [255, 240] [255, 0]).test false [1, 0] := by decide
    have faithful : Faithful .ipv4 .ge (maskedOrigin [255, 240] [255, 0]) [255, 0] [1, 0] :=
      ⟨rfl, rfl, rfl, fun n _ => by rw [same]; rfl⟩
    exact ⟨j, behind, written, exact faithful networkMembers networkPacket (by decide) rfl⟩
  · obtain ⟨js, written⟩ := rendered [255, 0] [15, 240] .eq
    obtain ⟨before, j, behind, mask, first, rfl, last, -, -, exact, -, -, other⟩ := masked_comparison holes written rfl
      (x := maskedOrigin [255, 0] [15, 240]) rfl (List.cons_ne_nil _ _)
    cases first
    cases last
    have unfaithful : ¬Faithful .ipv4 .eq (maskedOrigin [255, 0] [15, 240]) [15, 240] [1, 0] := fun faithful =>
      absurd ((exact rfl).mp faithful).2.2 (by decide)
    exact ⟨j, behind, written, other unfaithful rfl rfl rfl⟩

end Ports

end Firewall.Nft
