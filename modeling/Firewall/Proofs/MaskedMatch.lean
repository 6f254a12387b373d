import Firewall.Proofs.BitTest
import Firewall.Proofs.PayloadBits

namespace Firewall

open Program

namespace Origin

variable {x : Origin} {host : Bool} {bs data : List UInt8}

/-- The bits that stay under all masks. -/
def mask (x : Origin) (host : Bool) : Nat :=
  x.masks.foldr (fun m n => n &&& Bytes.number host m.1) (2 ^ (8 * x.field.length.toNat) - 1)

/-- What a comparison with `data` asks of the bits of the field. -/
def test (x : Origin) (host : Bool) (data : List UInt8) : BitTest := ⟨x.mask host, Bytes.number host data⟩

/-- Whether the machine's comparison holds of a packet that has the field. -/
def asks (x : Origin) (c : Comparison) (data : List UInt8) (p : Packet) : Bool :=
  (p.field? x.field).any fun bs => c.holds (x.value bs) data

theorem masked_number {masks : List (List UInt8 × List UInt8)} {width : Nat}
    (wide : ∀ m ∈ masks, m.1.length = width ∧ m.2.length = width) (plain : ∀ m ∈ masks, ∀ b ∈ m.2, b = 0)
    (fits : bs.length = width) (host : Bool) :
    (masks.foldr (fun m bs => maskBytes bs m.1 m.2) bs).length = width ∧
      Bytes.number host (masks.foldr (fun m bs => maskBytes bs m.1 m.2) bs) =
        Bytes.number host bs &&& masks.foldr (fun m n => n &&& Bytes.number host m.1) (2 ^ (8 * width) - 1) := by
  induction masks with
  | nil =>
    have small := Bytes.number_lt host bs
    rw [fits] at small
    exact ⟨fits, by rw [List.foldr_nil, List.foldr_nil, Nat.and_two_pow_sub_one_eq_mod, Nat.mod_eq_of_lt small]⟩
  | cons m masks ih =>
    obtain ⟨length, spelled⟩ := ih (fun m member => wide m (List.mem_cons_of_mem _ member))
      fun m member => plain m (List.mem_cons_of_mem _ member)
    obtain ⟨here, flips⟩ := wide m List.mem_cons_self
    have zero : m.2 = List.replicate width 0 := List.eq_replicate_iff.mpr ⟨flips, plain m List.mem_cons_self⟩
    rw [List.foldr_cons, List.foldr_cons, zero, maskBytes_zero here]
    refine ⟨?_, ?_⟩
    · rw [List.length_zipWith, length, here, Nat.min_self]
    · rw [Bytes.number_and host (length.trans here.symm), spelled, Nat.and_assoc]

theorem value_length (wide : x.Wide bs.length) (plain : x.Plain) : (x.value bs).length = bs.length :=
  (masked_number wide.2 plain rfl false).1

/-- Under its masks a value keeps the bits that are in all of them. -/
theorem value_number (wide : x.Wide bs.length) (plain : x.Plain) (host : Bool) :
    Bytes.number host (x.value bs) = Bytes.number host bs &&& x.mask host := by
  rw [mask, wide.1]
  exact (masked_number wide.2 plain rfl host).2

/-- The machine's comparison is a test of the bits of the field. -/
theorem asks_eq {c : Comparison} {p : Packet} (wide : x.Wide data.length) (plain : x.Plain)
    (equality : host = true → c.isEquality = true) :
    x.asks c data p = ((p.field? x.field).map (Bytes.number host)).any ((x.test host data).holds c) := by
  rw [asks]
  cases found : p.field? x.field with
  | none => rfl
  | some bs =>
    have width : bs.length = data.length := (Packet.field?_length found).trans wide.1
    rw [← width] at wide
    have same : (x.value bs).length = data.length := (value_length wide plain).trans width
    rw [Option.map_some, Option.any_some, Option.any_some, Comparison.holds_number same equality,
      value_number wide plain]
    rfl

theorem mask_lt (x : Origin) (host : Bool) : x.mask host < 2 ^ (8 * x.field.length.toNat) := by
  have below : ∀ masks : List (List UInt8 × List UInt8), ∀ n,
      masks.foldr (fun m n => n &&& Bytes.number host m.1) n ≤ n := by
    intro masks n
    induction masks with
    | nil => exact Nat.le_refl n
    | cons m masks ih => exact Nat.le_trans Nat.and_le_left ih
  have positive : 0 < 2 ^ (8 * x.field.length.toNat) := Nat.two_pow_pos _
  have bound := below x.masks (2 ^ (8 * x.field.length.toNat) - 1)
  rw [mask]
  omega

theorem test_fits (wide : x.Wide data.length) (host : Bool) : (x.test host data).Fits (8 * data.length) where
  mask := wide.1 ▸ x.mask_lt host
  value := Bytes.number_lt host data

/-- A run that comes to the comparison goes on if it holds of the packet. -/
theorem step_compare {members : Members} {p : Packet} {front : Program} {r₀ r : Registers} {reg : Register}
    {c : Comparison} (passed : pass members p r₀ front = some r) (held : origin? front reg = some x) :
    (Op.compare c reg data).step members p r = .guard (x.asks c data p) r := by
  obtain ⟨bs, found, same⟩ := Option.map_eq_some_iff.mp (pass_origin passed held)
  rw [Op.step, asks, found, ← same]
  rfl

end Origin

namespace Nft

section Reading

/-- What is masked on the left side of a match: a field, or bits of a header. -/
inductive Operand where
  | field (m : Meaning)
  | bits (s : Span)
  deriving DecidableEq, Repr

def operandOf? (family : Family) (left : Json) : Option Operand :=
  match placeOf? left with
  | some s => some (.bits s)
  | none => (fieldOf? family left).map .field

/-- The states of connections are numbers of the host. -/
def Meaning.inHostOrder : Meaning → Bool
  | .ctState => true
  | _ => false

/-- Whether a field holds the name of an interface, which is no number. -/
def Meaning.isInterface : Meaning → Bool
  | .metaKey .inputInterface | .metaKey .outputInterface => true
  | _ => false

/-- The number that a packet has of an operand. -/
def Operand.number? (p : Packet) : Operand → Option Nat
  | .field m => (m.valueIn? p).map (Bytes.number m.inHostOrder)
  | .bits s => p.bits? s

def Operand.isNumber : Operand → Bool
  | .field m => !m.isInterface
  | .bits _ => true

def numberOf? : Json → Option Nat
  | .string s =>
    match s.toList with
    | '0' :: 'x' :: digits => Text.digits? Text.hexDigit? 16 digits
    | _ => none
  | j => j.nat?

def comparisonOf? (op : String) : Option Comparison := Comparison.all.find? fun c => c.symbol = op

/-- Whether a packet passes a match with a mask on its left side. -/
def maskedMatchOf? (family : Family) (p : Packet) (op : String) (masked right : Json) : Option Bool :=
  match masked.items? with
  | some [left, mask] =>
    (comparisonOf? op).bind fun c => (operandOf? family left).bind fun x =>
      if x.isNumber then
        (numberOf? mask).bind fun mask => (numberOf? right).map fun value =>
          (x.number? p).any (BitTest.holds ⟨mask, value⟩ c)
      else none
  | _ => none

/-- Whether a packet passes a match. States of connections are asked for by their names or by their number. -/
def passes? (family : Family) (members : Members) (p : Packet) (j : Json) : Option Bool :=
  (j.get? "match").bind fun body => (stringAt? "op" body).bind fun op =>
    (body.get? "left").bind fun left => (body.get? "right").bind fun right =>
      match left.get? "&", right.nat? with
      | some masked, _ => maskedMatchOf? family p op masked right
      | none, some states =>
        if op = "in" ∧ fieldOf? family left = some .ctState then
          some (((Operand.field .ctState).number? p).any (BitTest.holds ⟨states, 0⟩ .ne))
        else matchOf? family members p body
      | none, none => matchOf? family members p body

end Reading

section Writing

variable {family : Family} {members : Members} {p : Packet} {m : Meaning} {c : Comparison}
  {mask data : List UInt8}

/-- The operand that a field is written as. -/
def Meaning.operand : Meaning → Operand
  | .raw header offset length => .bits ⟨header, (offset * 8).toNat, (length * 8).toNat⟩
  | m => .field m

/-- Whether a masked comparison is written as something that nftables has: no interface is masked, and there is
no order of addresses under a mask. -/
def understood (c : Comparison) : Meaning → Bool
  | .address _ => c.isEquality
  | m => !m.isInterface

/-- The test that the statement for a masked comparison is: of addresses that start with the same bits, or of
connections in one of some states, or the mask and the value as numbers of the network. -/
def shownTest (c : Comparison) (m : Meaning) (mask data : List UInt8) : BitTest :=
  let kept := (prefixMask (8 * mask.length) (maskOnes mask)).toNat
  match m with
  | .address _ => ⟨kept, Bytes.toNat data &&& kept⟩
  | .ctState =>
    if c = .ne ∧ data.all (· == 0) then ⟨Bytes.toNatHost mask, 0⟩ else ⟨Bytes.toNat mask, Bytes.toNat data⟩
  | _ => ⟨Bytes.toNat mask, Bytes.toNat data⟩

theorem digitsFrom_hexBytes (acc : Nat) (bs : List UInt8) :
    Text.digitsFrom Text.hexDigit? 16 acc (Text.hexBytes bs) = some (acc * 256 ^ bs.length + Bytes.toNat bs) := by
  have digit : ∀ acc, ∀ d < 16, ∀ cs, Text.digitsFrom Text.hexDigit? 16 acc (Text.digitChar d :: cs) =
      Text.digitsFrom Text.hexDigit? 16 (acc * 16 + d) cs := by
    intro acc d small cs
    rw [Text.digitsFrom, Text.hex_numerals.digit d small]
  induction bs using List.reverseRecOn generalizing acc with
  | nil => simp [Text.hexBytes, Text.digitsFrom, Bytes.toNat]
  | append_singleton bs b ih =>
    have low : b.toNat < 256 := b.toNat_lt
    have split : Text.hexBytes (bs ++ [b]) =
        Text.hexBytes bs ++ [Text.digitChar (b.toNat / 16), Text.digitChar (b.toNat % 16)] := by
      simp [Text.hexBytes]
    rw [split, Text.digitsFrom_append, ih, Option.bind_some, digit _ _ (by omega), digit _ _ (by omega),
      Text.digitsFrom, Bytes.toNat_concat, List.length_append, List.length_singleton, Nat.pow_succ,
      ← Nat.mul_assoc]
    congr 1
    omega

theorem numberOf?_bigEndian (bs : List UInt8) : numberOf? (bigEndian bs) = some (Bytes.toNat bs) := by
  rw [bigEndian]
  split
  · rfl
  · rename_i long
    have spelled := digitsFrom_hexBytes 0 bs
    rw [Nat.zero_mul, Nat.zero_add] at spelled
    rw [numberOf?, String.toList_ofList]
    cases digits : Text.hexBytes bs with
    | nil =>
      cases bs with
      | nil => exact absurd (Nat.zero_le 8) long
      | cons b bs => cases digits
    | cons d ds =>
      rw [digits] at spelled
      exact spelled

theorem operandOf?_expr (family : Family) (m : Meaning) :
    operandOf? family (m.expr family.profile) = some m.operand := by
  cases m with
  | metaKey key => cases key <;> rfl
  | ctState => rfl
  | address dir | port dir => cases family <;> cases dir <;> rfl
  | protocol | icmpType => cases family <;> rfl
  | raw header offset length => cases header <;> rfl

theorem comparisonOf?_symbol (c : Comparison) : comparisonOf? c.symbol = some c := by
  cases c <;> rfl

theorem isNumber_operand (m : Meaning) : m.operand.isNumber = !m.isInterface := by
  cases m <;> rfl

/-- The mask and the value of a statement are read as the numbers that they are written as, if its field is a
number. -/
theorem passes?_masked :
    passes? family members p (matchStatement c.symbol
        (single "&" (.array [m.expr family.profile, bigEndian mask])) (bigEndian data)) =
      if m.isInterface then none
      else some ((m.operand.number? p).any (BitTest.holds ⟨Bytes.toNat mask, Bytes.toNat data⟩ c)) := by
  show maskedMatchOf? family p c.symbol (.array [m.expr family.profile, bigEndian mask]) (bigEndian data) = _
  rw [maskedMatchOf?]
  dsimp only [Json.items?]
  rw [comparisonOf?_symbol, Option.bind_some, operandOf?_expr, Option.bind_some, isNumber_operand,
    numberOf?_bigEndian, numberOf?_bigEndian]
  cases m.isInterface <;> rfl

theorem passes?_number (number : m.isInterface = false) :
    passes? family members p (matchStatement c.symbol
        (single "&" (.array [m.expr family.profile, bigEndian mask])) (bigEndian data)) =
      some ((m.operand.number? p).any (BitTest.holds ⟨Bytes.toNat mask, Bytes.toNat data⟩ c)) := by
  rw [passes?_masked, number, if_neg Bool.false_ne_true]

/-- A match without a mask and without a number on its right side asks what it is read as. -/
theorem passes?_bare {op : String} {left right : Json} (bare : left.get? "&" = none) (text : right.nat? = none) :
    passes? family members p (matchStatement op left right) =
      matchOf? family members p (.object [("op", .string op), ("left", left), ("right", right)]) := by
  show (match left.get? "&", right.nat? with
    | some masked, _ => _
    | none, some states => _
    | none, none => _) = _
  rw [bare, text]

theorem passes?_plain {op : String} {left right : Json} {b : Bool} (bare : left.get? "&" = none)
    (text : right.nat? = none)
    (read : moveOf? family members p (matchStatement op left right) = some (.test b)) :
    passes? family members p (matchStatement op left right) = some b := by
  have test : (matchOf? family members p (.object [("op", .string op), ("left", left), ("right", right)])).map
      Move.test = some (.test b) := read
  obtain ⟨held, found, same⟩ := Option.map_eq_some_iff.mp test
  cases same
  exact (passes?_bare bare text).trans found

/-- Values with the same leading bits are those with the same bits under a mask. -/
theorem sameLeading_eq {as bs : List UInt8} {len w : Nat} (first : 8 * as.length = w) (second : 8 * bs.length = w) :
    sameLeading len as bs = decide (Bytes.toNat as &&& (prefixMask w len).toNat =
      Bytes.toNat bs &&& (prefixMask w len).toNat) := by
  have small : ∀ cs : List UInt8, 8 * cs.length = w → Bytes.toNat cs < 2 ^ w := by
    intro cs width
    rw [← width, Nat.pow_mul]
    exact Bytes.toNat_lt cs
  have width : as.length = bs.length := by omega
  have masked := and_prefixMask_eq_iff (n := len) (a := BitVec.ofNat w (Bytes.toNat as))
    (b := BitVec.ofNat w (Bytes.toNat bs))
  rw [← BitVec.toNat_inj, BitVec.toNat_and, BitVec.toNat_and, BitVec.toNat_ofNat, BitVec.toNat_ofNat,
    Nat.mod_eq_of_lt (small as first), Nat.mod_eq_of_lt (small bs second)] at masked
  rw [sameLeading, width, beq_self_eq_true, Bool.true_and, second, Bool.eq_iff_iff, beq_iff_eq,
    decide_eq_true_iff]
  exact masked.symm

/-- An address under a mask is written as a network with as many leading bits as the mask has ones. -/
theorem passes?_address {dir : Direction} {a : Address} (equality : c.isEquality = true)
    (same : ∀ value, Meaning.valueIn? p (.address dir) = some value → value.length = a.bytes.length)
    (width : mask.length = a.bytes.length) :
    passes? family members p (compareStatement family.profile c (.address dir) (some mask) a.bytes) =
      some (((Operand.field (.address dir)).number? p).any ((shownTest c (.address dir) mask a.bytes).holds c)) := by
  obtain ⟨invert, rfl⟩ : ∃ invert, c = .equal invert := by
    cases c with
    | eq => exact ⟨false, rfl⟩
    | ne => exact ⟨true, rfl⟩
    | lt | le | gt | ge => cases equality
  have text : Meaning.ofString? (.address dir) a.text = some a.bytes := by
    rw [Meaning.ofString?, Address.text, String.toList_ofList, Address.parse?_chars]
    rfl
  have right : rightOf? family members (.address dir) (single "prefix" (.object
      [("addr", addressValue a.bytes), ("len", .nat (maskOnes mask))])) =
        some (.keys (sameLeading (maskOnes mask) · a.bytes)) := by
    rw [addressValue, Address.ofBytes?_bytes]
    show (Meaning.ofString? (.address dir) a.text).bind _ = _
    rw [text]
    rfl
  have move := moveOf?_keys (p := p) invert (fieldOf?_expr family (m := .address dir) rfl) right
  refine (passes?_plain (expr_unmasked _ _) rfl move).trans (congrArg some ?_)
  rw [Operand.number?]
  cases found : Meaning.valueIn? p (.address dir) with
  | none => rfl
  | some value =>
    let kept := (prefixMask (8 * mask.length) (maskOnes mask)).toNat
    rw [Option.map_some, Option.any_some, Option.any_some,
      sameLeading_eq (w := 8 * mask.length) (by rw [same value found, width]) (by rw [width])]
    cases invert with
    | false =>
      show (_ != false) = BitTest.holds ⟨kept, Bytes.toNat a.bytes &&& kept⟩ .eq (Bytes.toNat value)
      rw [Bool.bne_false, BitTest.holds_eq]
    | true =>
      show (_ != true) = BitTest.holds ⟨kept, Bytes.toNat a.bytes &&& kept⟩ .ne (Bytes.toNat value)
      rw [Bool.bne_true, BitTest.holds_ne]

/-- Connections in one of some states are asked for by the names of the states, or by their number. -/
theorem passes?_states (width : mask.length = 4) :
    passes? family members p (matchStatement "in" (Meaning.expr family.profile .ctState) (ctNames mask)) =
      some (((Operand.field .ctState).number? p).any (BitTest.holds ⟨Bytes.toNatHost mask, 0⟩ .ne)) := by
  cases states : CtState.ofBytes? mask with
  | some s =>
    have same : s.bytes = mask := CtState.ofBytes?_some states
    have named : (ctNames s.bytes).nat? = none := by
      rw [ctNames, CtState.ofBytes?_bytes]
      rfl
    subst same
    refine (passes?_plain rfl named (moveOf?_states s)).trans (congrArg some ?_)
    have bits : Bytes.toNatHost s.bytes = s.bits.toNat := Bytes.toNatHost_ofNatHost_of_lt s.bits.toNat_lt
    have state : Bytes.number true (Bytes.ofNatHost 4 p.ctState.toNat) = p.ctState.toNat :=
      Bytes.toNatHost_ofNatHost_of_lt p.ctState.toNat_lt
    show _ = BitTest.holds ⟨Bytes.toNatHost s.bytes, 0⟩ .ne
      (Bytes.number true (Bytes.ofNatHost 4 p.ctState.toNat))
    rw [state, bits, BitTest.holds_ne, Packet.meets, Bool.eq_iff_iff, bne_iff_ne, Bool.not_eq_true',
      decide_eq_false_iff_not, Ne, ← UInt32.toNat_inj, UInt32.toNat_and]
    rfl
  | none =>
    rw [ctNames, states, if_pos width]
    rfl

/-- A masked comparison is read as the test that it shows. -/
theorem passes?_shown (meant : understood c m = true)
    (wide : ∀ dir, m = .address dir → data.length = family.keyType.length)
    (same : ∀ dir value, m = .address dir → m.valueIn? p = some value → value.length = data.length)
    (states : m = .ctState → mask.length = 4) (width : mask.length = data.length) :
    passes? family members p (compareStatement family.profile c m (some mask) data) =
      some ((m.operand.number? p).any ((shownTest c m mask data).holds c)) := by
  cases m with
  | address dir =>
    obtain ⟨a, -, rfl⟩ := Address.exists_bytes (wide dir rfl)
    exact passes?_address meant (fun value found => same dir value rfl found) width
  | ctState =>
    rw [compareStatement, shownTest]
    split
    · rename_i asked
      rw [asked.1]
      exact passes?_states (states rfl)
    · exact passes?_number rfl
  | metaKey key =>
    have number : (Meaning.metaKey key).isInterface = false := by simpa [understood] using meant
    exact passes?_number number
  | protocol | port | icmpType | raw => exact passes?_number rfl

/-- What is not understood means nothing: an interface under a mask, or an order of networks. -/
theorem passes?_nothing (unknown : understood c m = false) :
    passes? family members p (compareStatement family.profile c m (some mask) data) = none := by
  cases m with
  | metaKey key =>
    have other : (Meaning.metaKey key).isInterface = true := by simpa [understood] using unknown
    exact passes?_masked.trans (if_pos other)
  | address dir =>
    have keys : ∀ network r, rightOf? family members (.address dir) (single "prefix" network) = some r →
        r.compare? c = none := by
      intro network r read
      obtain ⟨address, -, read⟩ := Option.bind_eq_some_iff.mp read
      obtain ⟨bs, -, read⟩ := Option.bind_eq_some_iff.mp read
      obtain ⟨n, -, rfl⟩ := Option.map_eq_some_iff.mp read
      cases c with
      | lt | le | gt | ge => rfl
      | eq | ne => cases unknown
    refine (passes?_bare (expr_unmasked _ _) rfl).trans ?_
    show ((fieldOf? family (Meaning.expr family.profile (.address dir))).bind fun m =>
      (testOf? family members m c.symbol (single "prefix" _)).map _) = none
    rw [fieldOf?_expr family (m := .address dir) rfl, Option.bind_some, testOf?_symbol]
    cases read : rightOf? family members (.address dir) (single "prefix" (.object
        [("addr", addressValue data), ("len", .nat (maskOnes mask))])) with
    | none => rfl
    | some r =>
      rw [Option.bind_some, keys _ r read]
      rfl
  | ctState | protocol | port | icmpType | raw => cases unknown

end Writing

end Nft
end Firewall
