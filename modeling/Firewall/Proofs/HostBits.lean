import Firewall.MatchSet.Spec
import Firewall.Proofs.Network

namespace Firewall

/-- Ones without a gap are one less than a power of two. -/
theorem exists_ones {host : Nat} (h : host &&& (host + 1) = 0) : ∃ n, host = 2 ^ n - 1 := by
  induction host using Nat.strongRecOn with
  | ind host ih =>
    by_cases zero : host = 0
    · exact ⟨0, zero⟩
    · have half : host / 2 &&& (host + 1) / 2 = 0 := by
        rw [← Nat.and_div_two, h]
      rcases Nat.mod_two_eq_zero_or_one host with even | odd
      · have same : (host + 1) / 2 = host / 2 := by omega
        rw [same, Nat.and_self] at half
        omega
      · have next : (host + 1) / 2 = host / 2 + 1 := by omega
        rw [next] at half
        obtain ⟨n, hn⟩ := ih (host / 2) (by omega) half
        have positive : 0 < 2 ^ n := Nat.two_pow_pos n
        refine ⟨n + 1, ?_⟩
        rw [Nat.pow_succ]
        omega

/-- One less than a power of two has no bit in common with the power. -/
theorem ones_and_succ (n : Nat) : (2 ^ n - 1) &&& (2 ^ n - 1 + 1) = 0 := by
  have positive : 0 < 2 ^ n := Nat.two_pow_pos n
  rw [Nat.sub_add_cancel positive]
  apply Nat.eq_of_testBit_eq
  intro i
  rw [Nat.testBit_and, Nat.testBit_two_pow_sub_one, Nat.testBit_two_pow, Nat.zero_testBit]
  by_cases below : i < n
  · simp [Nat.ne_of_gt below]
  · simp [below]

theorem countOnes_ones (n : Nat) : countOnes (2 ^ n - 1) = n := by
  induction n with
  | zero =>
    rw [countOnes]
    rfl
  | succ n ih =>
    have positive : 0 < 2 ^ n := Nat.two_pow_pos n
    have some : 2 ^ (n + 1) - 1 ≠ 0 := by
      rw [Nat.pow_succ]
      omega
    have odd : (2 ^ (n + 1) - 1) % 2 = 1 := by
      rw [Nat.pow_succ]
      omega
    have half : (2 ^ (n + 1) - 1) / 2 = 2 ^ n - 1 := by
      rw [Nat.pow_succ]
      omega
    rw [countOnes, if_neg some, odd, half, ih, Nat.add_comm]

/-- The ones of a number are those of its higher and those of its lower part. -/
theorem countOnes_append (k q r : Nat) (h : r < 2 ^ k) :
    countOnes (q * 2 ^ k + r) = countOnes q + countOnes r := by
  induction k generalizing q r with
  | zero =>
    have zero : r = 0 := by simpa using h
    have none : countOnes 0 = 0 := by
      rw [countOnes]
      rfl
    rw [zero, none, Nat.pow_zero, Nat.mul_one]
    rfl
  | succ k ih =>
    have halved : ∀ n, countOnes n = n % 2 + countOnes (n / 2) := by
      intro n
      rw [countOnes]
      split
      · rename_i zero
        rw [zero, countOnes]
        rfl
      · rfl
    have half : r / 2 < 2 ^ k := by
      rw [Nat.pow_succ] at h
      omega
    have twice : q * 2 ^ (k + 1) = q * 2 ^ k * 2 := by rw [Nat.pow_succ, Nat.mul_assoc]
    have parity : (q * 2 ^ k * 2 + r) % 2 = r % 2 := by omega
    have rest : (q * 2 ^ k * 2 + r) / 2 = q * 2 ^ k + r / 2 := by omega
    rw [twice, halved (q * 2 ^ k * 2 + r), parity, rest, ih q (r / 2) half, halved r]
    omega

theorem prefixMask_toNat {w n : Nat} (h : n ≤ w) :
    (prefixMask w n).toNat = (2 ^ n - 1) * 2 ^ (w - n) := by
  have positive : 0 < 2 ^ (w - n) := Nat.two_pow_pos _
  have split : 2 ^ n * 2 ^ (w - n) = 2 ^ w := by rw [← Nat.pow_add, Nat.add_sub_cancel' h]
  have below : 2 ^ (w - n) ≤ 2 ^ w := Nat.pow_le_pow_right (by decide) (Nat.sub_le w n)
  have times : 2 ^ w ≤ 2 ^ w * 2 ^ (w - n) := Nat.le_mul_of_pos_right _ positive
  have carried : (2 ^ w - 1) * 2 ^ (w - n) =
      2 ^ w - 2 ^ (w - n) + 2 ^ w * (2 ^ (w - n) - 1) := by
    rw [Nat.sub_mul, Nat.mul_sub, Nat.one_mul, Nat.mul_one]
    omega
  rw [prefixMask, BitVec.toNat_shiftLeft, BitVec.toNat_allOnes, Nat.shiftLeft_eq, carried,
    Nat.add_mul_mod_self_left, Nat.mod_eq_of_lt (by omega), Nat.sub_mul, split, Nat.one_mul]

theorem countOnes_prefixMask {w n : Nat} (h : n ≤ w) : countOnes (prefixMask w n).toNat = n := by
  have shifted := countOnes_append (w - n) (2 ^ n - 1) 0 (Nat.two_pow_pos _)
  have none : countOnes 0 = 0 := by
    rw [countOnes]
    rfl
  rw [Nat.add_zero, none, countOnes_ones] at shifted
  rw [prefixMask_toNat h, shifted, Nat.add_zero]

section Bounds

variable {w n : Nat} {first last : BitVec w}

/-- The first address of a network that starts at an address without host bits. -/
theorem and_prefixMask_of_host (le : n ≤ w) (h : first.toNat &&& (2 ^ n - 1) = 0) :
    first &&& prefixMask w (w - n) = first := by
  apply BitVec.eq_of_getElem_eq
  intro i hi
  rw [BitVec.getElem_and, prefixMask_getElem, Nat.sub_sub_self le]
  by_cases inside : n ≤ i
  · simp [inside]
  · have bit := congrArg (fun m => m.testBit i) h
    rw [Nat.testBit_and, Nat.testBit_two_pow_sub_one, BitVec.testBit_toNat,
      BitVec.getLsbD_eq_getElem hi, decide_eq_true (Nat.lt_of_not_le inside), Bool.and_true,
      Nat.zero_testBit] at bit
    rw [bit, Bool.false_and]

/-- The last address of such a network: all host bits are set. -/
theorem or_not_prefixMask_of_host (le : n ≤ w) (h : first.toNat &&& (2 ^ n - 1) = 0)
    (differ : first.toNat ^^^ last.toNat = 2 ^ n - 1) :
    first ||| ~~~prefixMask w (w - n) = last := by
  apply BitVec.eq_of_getElem_eq
  intro i hi
  have clear := congrArg (fun m => m.testBit i) h
  have bit := congrArg (fun m => m.testBit i) differ
  rw [Nat.testBit_and, Nat.testBit_two_pow_sub_one, BitVec.testBit_toNat,
    BitVec.getLsbD_eq_getElem hi, Nat.zero_testBit] at clear
  rw [Nat.testBit_xor, Nat.testBit_two_pow_sub_one, BitVec.testBit_toNat, BitVec.testBit_toNat,
    BitVec.getLsbD_eq_getElem hi, BitVec.getLsbD_eq_getElem hi] at bit
  rw [BitVec.getElem_or, BitVec.getElem_not, prefixMask_getElem, Nat.sub_sub_self le]
  by_cases inside : n ≤ i
  · have above : ¬ i < n := Nat.not_lt.mpr inside
    have same : first[i] = last[i] := by
      rw [decide_eq_false above] at bit
      revert bit
      cases first[i] <;> cases last[i] <;> decide
    simp [inside, same]
  · have below : i < n := Nat.lt_of_not_le inside
    rw [decide_eq_true below, Bool.and_true] at clear
    rw [clear, decide_eq_true below, Bool.false_xor] at bit
    simp [inside, bit]

/-- The bounds of a network: the host part tells its length, and they are its first and last
address. -/
theorem bounds_of_host {host : Nat} (ones : host &&& (host + 1) = 0)
    (clear : first.toNat &&& host = 0) (differ : first.toNat ^^^ last.toNat = host) :
    countOnes host ≤ w ∧ first &&& prefixMask w (w - countOnes host) = first ∧
      first &&& prefixMask w (w - countOnes host) ||| ~~~prefixMask w (w - countOnes host) = last := by
  obtain ⟨n, rfl⟩ := exists_ones ones
  have le : n ≤ w := by
    have small : 2 ^ n - 1 < 2 ^ w := differ ▸ Nat.xor_lt_two_pow first.isLt last.isLt
    by_contra h
    have twice : 2 ^ (w + 1) ≤ 2 ^ n := Nat.pow_le_pow_right (by decide) (Nat.lt_of_not_le h)
    have positive : 0 < 2 ^ w := Nat.two_pow_pos w
    rw [Nat.pow_succ] at twice
    omega
  have start := and_prefixMask_of_host le clear
  rw [countOnes_ones, start]
  exact ⟨le, rfl, or_not_prefixMask_of_host le clear differ⟩

/-- A network starts with all its host bits clear. -/
theorem base_host (a : BitVec w) (n : Nat) :
    (a &&& prefixMask w n).toNat &&& (2 ^ (w - n) - 1) = 0 := by
  apply Nat.eq_of_testBit_eq
  intro i
  rw [Nat.testBit_and, Nat.testBit_two_pow_sub_one, BitVec.testBit_toNat, Nat.zero_testBit]
  by_cases host : i < w - n
  · have inside : i < w := by omega
    simp [BitVec.getLsbD_eq_getElem inside, prefixMask_getElem, Nat.not_le.mpr host]
  · simp [host]

/-- The bounds of a network differ in its host bits and nowhere else. -/
theorem base_xor_last (a : BitVec w) (n : Nat) :
    (a &&& prefixMask w n).toNat ^^^ (a &&& prefixMask w n ||| ~~~prefixMask w n).toNat =
      2 ^ (w - n) - 1 := by
  apply Nat.eq_of_testBit_eq
  intro i
  rw [Nat.testBit_xor, Nat.testBit_two_pow_sub_one, BitVec.testBit_toNat, BitVec.testBit_toNat]
  by_cases inside : i < w
  · by_cases host : i < w - n
    · simp [BitVec.getLsbD_eq_getElem inside, prefixMask_getElem, host, Nat.not_le.mpr host]
    · simp [BitVec.getLsbD_eq_getElem inside, prefixMask_getElem, host, Nat.not_lt.mp host]
  · have above : ¬ i < w - n := by omega
    simp [BitVec.getLsbD_of_ge _ _ (Nat.not_lt.mp inside), above]

end Bounds

end Firewall
