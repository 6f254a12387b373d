import Firewall.Address.Basic
import Firewall.Proofs.Bytes

namespace Firewall

namespace Address

theorem toNat_lt (a : Address) : a.toNat < 256 ^ a.family.profile.addressLength.toNat := by
  cases a with
  | v4 b => exact b.isLt
  | v6 b => exact b.isLt

theorem bytes_eq (a : Address) :
    a.bytes = Bytes.ofNat a.family.profile.addressLength.toNat a.toNat := by
  cases a <;> rfl

theorem bytes_inj {a b : Address} (h : a.family = b.family) : a.bytes = b.bytes ↔ a = b := by
  constructor
  · intro e
    rw [bytes_eq, bytes_eq, h, Bytes.ofNat_inj (h ▸ a.toNat_lt) b.toNat_lt] at e
    cases a <;> cases b <;> simp_all [family, toNat, BitVec.toNat_inj]
  · intro e
    rw [e]

theorem unmapped_unmapped (a : Address) : a.unmapped.unmapped = a.unmapped := by
  cases a with
  | v4 b => rfl
  | v6 b =>
    unfold unmapped
    by_cases h : isMapped b = true
    · simp [h]
    · simp [h]

end Address

theorem prefixMask_getElem {w n i : Nat} (hi : i < w) :
    (prefixMask w n)[i] = decide (w - n ≤ i) := by
  simp only [prefixMask, BitVec.getElem_shiftLeft, BitVec.getElem_allOnes]
  by_cases h : i < w - n
  · simp [h]
    omega
  · simp [h, Nat.not_lt.mp h]

/-- Masking keeps the leading bits and nothing else. -/
theorem and_prefixMask_eq_iff {w n : Nat} {a b : BitVec w} :
    a &&& prefixMask w n = b &&& prefixMask w n ↔ a.toNat >>> (w - n) = b.toNat >>> (w - n) := by
  constructor
  · intro h
    apply Nat.eq_of_testBit_eq
    intro i
    rw [Nat.testBit_shiftRight, Nat.testBit_shiftRight]
    by_cases hi : w - n + i < w
    · have bit := congrArg (fun v : BitVec w => v[w - n + i]) h
      rw [BitVec.testBit_toNat, BitVec.testBit_toNat, BitVec.getLsbD_eq_getElem hi,
        BitVec.getLsbD_eq_getElem hi]
      simpa [prefixMask_getElem] using bit
    · rw [BitVec.testBit_toNat, BitVec.testBit_toNat, BitVec.getLsbD_of_ge _ _ (by omega),
        BitVec.getLsbD_of_ge _ _ (by omega)]
  · intro h
    apply BitVec.eq_of_getElem_eq
    intro i hi
    rw [BitVec.getElem_and, BitVec.getElem_and, prefixMask_getElem]
    by_cases inside : w - n ≤ i
    · have bit := congrArg (fun m => m.testBit (i - (w - n))) h
      rw [Nat.testBit_shiftRight, Nat.testBit_shiftRight, Nat.add_sub_cancel' inside,
        BitVec.testBit_toNat, BitVec.testBit_toNat, BitVec.getLsbD_eq_getElem hi,
        BitVec.getLsbD_eq_getElem hi] at bit
      rw [bit]
    · simp [inside]

namespace Network

/-- Whether an address belongs to a network: it is of its family and starts with the same bits. -/
def covers (n : Network) (a : Address) : Bool :=
  a.family == n.address.family &&
    a.toNat >>> (a.family.width - n.length) == n.address.toNat >>> (a.family.width - n.length)

theorem base_family (n : Network) : n.base.family = n.address.family := by
  unfold base
  cases n.address <;> rfl

theorem mask_family (n : Network) : n.mask.family = n.address.family := by
  unfold mask
  cases n.address <;> rfl

/-- An address masked like the network is its base exactly if it belongs to it. -/
theorem covers_eq {n : Network} {a : Address} (h : a.family = n.address.family) :
    n.covers a = (Bytes.ofNat a.family.profile.addressLength.toNat (a.toNat &&& n.mask.toNat) ==
      n.base.bytes) := by
  obtain ⟨b, length, le⟩ := n
  rw [Bool.eq_iff_iff, beq_iff_eq, covers, h, beq_self_eq_true, Bool.true_and, beq_iff_eq]
  cases a with
  | v4 c =>
    cases b with
    | v4 b =>
      show c.toNat >>> (32 - length) = b.toNat >>> (32 - length) ↔
        Bytes.ofNat 4 (c &&& prefixMask 32 length).toNat =
          Bytes.ofNat 4 (b &&& prefixMask 32 length).toNat
      rw [Bytes.ofNat_inj (BitVec.isLt _) (BitVec.isLt _), BitVec.toNat_inj, and_prefixMask_eq_iff]
    | v6 b => cases h
  | v6 c =>
    cases b with
    | v4 b => cases h
    | v6 b =>
      show c.toNat >>> (128 - length) = b.toNat >>> (128 - length) ↔
        Bytes.ofNat 16 (c &&& prefixMask 128 length).toNat =
          Bytes.ofNat 16 (b &&& prefixMask 128 length).toNat
      rw [Bytes.ofNat_inj (BitVec.isLt _) (BitVec.isLt _), BitVec.toNat_inj, and_prefixMask_eq_iff]

/-- The loopback network of a family is that of its loopback addresses. -/
theorem loopback_covers (a : Address) : a.family.loopbackNetwork.covers a = a.isLoopback := by
  cases a <;> simp [Address.family, Family.loopbackNetwork, covers, Address.toNat, Family.width,
    Address.isLoopback]

end Network
end Firewall
