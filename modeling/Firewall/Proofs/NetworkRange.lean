import Firewall.Proofs.Predicate
import Firewall.Proofs.SpecRoundTrip

namespace Firewall

section Bounds

variable {w n : Nat}

/-- The numbers whose higher part is `q`. -/
theorem between_iff_div {k q x : Nat} : q * 2 ^ k ≤ x ∧ x ≤ q * 2 ^ k + (2 ^ k - 1) ↔ x / 2 ^ k = q := by
  have positive : 0 < 2 ^ k := Nat.two_pow_pos k
  rw [Nat.div_eq_iff positive]
  omega

theorem base_toNat (a : BitVec w) (n : Nat) :
    (a &&& prefixMask w n).toNat = a.toNat / 2 ^ (w - n) * 2 ^ (w - n) := by
  have low := base_host a n
  have high : (a &&& prefixMask w n).toNat >>> (w - n) = a.toNat >>> (w - n) := by
    rw [← and_prefixMask_eq_iff, BitVec.and_assoc, BitVec.and_self]
  rw [Nat.and_two_pow_sub_one_eq_mod] at low
  rw [Nat.shiftRight_eq_div_pow, Nat.shiftRight_eq_div_pow] at high
  rw [← high, Nat.div_mul_cancel (Nat.dvd_of_mod_eq_zero low)]

theorem last_toNat (a : BitVec w) (n : Nat) :
    (a &&& prefixMask w n ||| ~~~prefixMask w n).toNat =
      a.toNat / 2 ^ (w - n) * 2 ^ (w - n) + (2 ^ (w - n) - 1) := by
  have below : 2 ^ (w - n) - 1 < 2 ^ (w - n) := Nat.sub_one_lt (Nat.two_pow_pos _).ne'
  -- The bounds differ in the host bits only, which are all clear in the first one.
  have flipped : (a &&& prefixMask w n ||| ~~~prefixMask w n).toNat =
      (a &&& prefixMask w n).toNat ^^^ (2 ^ (w - n) - 1) := by
    rw [← base_xor_last a n, ← Nat.xor_assoc, Nat.xor_self, Nat.zero_xor]
  rw [flipped, base_toNat, Nat.mul_comm, Nat.two_pow_add_eq_or_of_lt below]
  apply Nat.eq_of_testBit_eq
  intro i
  rw [Nat.testBit_xor, Nat.testBit_or, Nat.testBit_two_pow_sub_one, Nat.testBit_two_pow_mul]
  by_cases host : i < w - n
  · simp [host, Nat.not_le.mpr host]
  · simp [host]

/-- Two numbers have the same higher part if each of their leading bits is the same. -/
theorem leadingBits_iff {x y : Nat} (hx : x < 2 ^ w) (hy : y < 2 ^ w) (le : n ≤ w) :
    (∀ i < n, x.testBit (w - 1 - i) = y.testBit (w - 1 - i)) ↔ x >>> (w - n) = y >>> (w - n) := by
  constructor
  · intro same
    apply Nat.eq_of_testBit_eq
    intro j
    rw [Nat.testBit_shiftRight, Nat.testBit_shiftRight]
    by_cases inside : w - n + j < w
    · have bit := same (n - 1 - j) (by omega)
      have place : w - 1 - (n - 1 - j) = w - n + j := by omega
      rwa [place] at bit
    · have beyond : 2 ^ w ≤ 2 ^ (w - n + j) := Nat.pow_le_pow_right Nat.two_pos (Nat.not_lt.mp inside)
      rw [Nat.testBit_lt_two_pow (Nat.lt_of_lt_of_le hx beyond),
        Nat.testBit_lt_two_pow (Nat.lt_of_lt_of_le hy beyond)]
  · intro same i inside
    have bit := congrArg (fun m => m.testBit (n - 1 - i)) same
    have place : w - n + (n - 1 - i) = w - 1 - i := by omega
    rwa [Nat.testBit_shiftRight, Nat.testBit_shiftRight, place] at bit

end Bounds

namespace Network

theorem bounds_toNat (n : Network) :
    n.base.toNat = n.address.toNat / 2 ^ (n.address.family.width - n.length) *
        2 ^ (n.address.family.width - n.length) ∧
      n.last.toNat = n.base.toNat + (2 ^ (n.address.family.width - n.length) - 1) := by
  obtain ⟨a, length, le⟩ := n
  cases a with
  | v4 b => exact ⟨base_toNat b length, (last_toNat b length).trans (by rw [← base_toNat]; rfl)⟩
  | v6 b => exact ⟨base_toNat b length, (last_toNat b length).trans (by rw [← base_toNat]; rfl)⟩

/-- The range from the first to the last address of a network holds its addresses. -/
theorem range_contains {n : Network} {a : Address} (same : a.family = n.address.family) :
    (Element.range n.base.bytes n.last.bytes).contains a.bytes = n.covers a := by
  have first : n.base.bytes.length = a.bytes.length := by
    rw [Address.bytes_keyLength, Address.bytes_keyLength, n.base_family, same]
  have last : a.bytes.length = n.last.bytes.length := by
    rw [Address.bytes_keyLength, Address.bytes_keyLength, n.last_family, n.base_family, same]
  obtain ⟨base, top⟩ := n.bounds_toNat
  rw [Element.range_contains_bounds first, Bytes.le_toNat first, Bytes.le_toNat last,
    Address.toNat_bytes, Address.toNat_bytes, Address.toNat_bytes, top, base, covers, same,
    beq_self_eq_true, Bool.true_and, Bool.eq_iff_iff, Bool.and_eq_true, decide_eq_true_iff,
    decide_eq_true_iff, beq_iff_eq, Nat.shiftRight_eq_div_pow, Nat.shiftRight_eq_div_pow]
  exact between_iff_div

theorem width_pow (f : Family) : 256 ^ f.profile.addressLength.toNat = 2 ^ f.width := by
  cases f <;> rfl

/-- An address belongs to a network if it has the leading bits of the network's address. -/
theorem covers_iff {n : Network} {a : Address} (same : a.family = n.address.family) :
    n.covers a = true ↔ ∀ i < n.length,
      a.toNat.testBit (n.address.family.width - 1 - i) =
        n.address.toNat.testBit (n.address.family.width - 1 - i) := by
  have ha := a.toNat_lt
  have hn := n.address.toNat_lt
  rw [same, width_pow] at ha
  rw [width_pow] at hn
  rw [leadingBits_iff ha hn n.length_le, covers, same, beq_self_eq_true, Bool.true_and, beq_iff_eq]

end Network

section Agreement

variable {p : Packet} {n : Network}

/-- A network of the packet's family can be asked for, in any direction and register. -/
theorem Predicate.network_built (same : n.address.family = p.family) (dir : Direction) (invert : Bool)
    (reg : Register) : ∃ f, Predicate.network p.family.profile dir n invert reg = .ok f := by
  rw [Predicate.network, if_pos (same.trans p.family.profile_family.symm)]
  exact ⟨_, rfl⟩

/-- The text of a network is read as the range of its addresses by every set of its family with the interval
flag. -/
theorem Spec.network_read (n : Network) :
    readAll (addressElement n.address.family true) [n.text] =
      .ok [.range n.base.bytes n.last.bytes] := by
  have read := addressElement_network n true
  rw [if_neg (by simp)] at read
  rw [readAll, Network.text, read]
  rfl

/-- A rule that asks for a network lets exactly those packets pass whose address is in the element that the
network's text spells, or exactly the others if it is inverted. -/
theorem network_agrees_with_element (wf : p.wellFormed = true) (same : n.address.family = p.family)
    (members : Members) (dir : Direction) (invert : Bool) (reg : Register) :
    ∃ f e, Predicate.network p.family.profile dir n invert reg = .ok f ∧
      Spec.readAll (Spec.addressElement p.family true) [n.text] = .ok [e] ∧
      Program.evaluate members p (f ++ Predicate.accept) =
        if e.contains (p.address dir).bytes != invert then .verdict .accept else .noMatch := by
  obtain ⟨f, built⟩ := Predicate.network_built same dir invert reg
  have tests : Program.Tests members p f _ := Predicate.network_tests wf built
  have ours : (p.address dir).family = n.address.family := (Packet.address_family wf dir).trans same.symm
  refine ⟨f, .range n.base.bytes n.last.bytes, built, same ▸ Spec.network_read n, ?_⟩
  rw [Network.range_contains ours, Program.evaluate, if_pos wf]
  exact Program.run_verdict tests _ .accept

def upperNetwork : Network := ⟨.v6 0x20010DB8FFFF00000000000000000001#128, 33, by decide⟩

def halvesPacket : Packet :=
  ⟨none, none, protocolTcp, .v6 0x20010DB8000000000000000000000001#128,
    .v6 0x20010DB8800000000000000000000001#128, 40000, 443, 0, 0, 8⟩

theorem network_agrees_with_element_upper :
    halvesPacket.wellFormed = true ∧ upperNetwork.address.family = halvesPacket.family ∧
    ∃ f g e, Predicate.network Family.ipv6.profile .source upperNetwork true ⟨3⟩ = .ok f ∧
      Predicate.network Family.ipv6.profile .destination upperNetwork true ⟨3⟩ = .ok g ∧
      Spec.readAll (Spec.addressElement .ipv6 true) ["2001:db8:ffff::1/33"] = .ok [e] ∧
      e.contains halvesPacket.source.bytes = false ∧ e.contains halvesPacket.destination.bytes = true ∧
      Program.evaluate (fun _ _ => false) halvesPacket (f ++ Predicate.accept) = .verdict .accept ∧
      Program.evaluate (fun _ _ => false) halvesPacket (g ++ Predicate.accept) = .noMatch := by
  have wf : halvesPacket.wellFormed = true := by decide
  have same : upperNetwork.address.family = halvesPacket.family := rfl
  have text : upperNetwork.text = "2001:db8:ffff::1/33" := by decide +kernel
  obtain ⟨f, e, built, read, outside⟩ :=
    network_agrees_with_element wf same (fun _ _ => false) .source true ⟨3⟩
  obtain ⟨g, e', built', read', inside⟩ :=
    network_agrees_with_element wf same (fun _ _ => false) .destination true ⟨3⟩
  have element : e = .range upperNetwork.base.bytes upperNetwork.last.bytes := by
    have spelled := Spec.network_read upperNetwork
    rw [same, read] at spelled
    cases spelled
    rfl
  cases read.symm.trans read'
  have source : e.contains halvesPacket.source.bytes = false := by
    rw [element]
    decide +kernel
  have destination : e.contains halvesPacket.destination.bytes = true := by
    rw [element]
    decide +kernel
  rw [text] at read
  refine ⟨wf, same, f, g, e, built, built', read, source, destination, outside.trans ?_, inside.trans ?_⟩
  · exact if_pos (by rw [show halvesPacket.address .source = halvesPacket.source from rfl, source]; rfl)
  · exact if_neg (by
      rw [show halvesPacket.address .destination = halvesPacket.destination from rfl, destination]
      decide)

end Agreement

end Firewall
