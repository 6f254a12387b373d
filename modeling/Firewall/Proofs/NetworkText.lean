import Firewall.Proofs.AddressText
import Firewall.Proofs.NumberText

namespace Firewall

open Text

namespace Network

/-- The length that a mask stands for. -/
theorem maskLength?_prefixMask {n : Nat} (le : n ≤ 32) : maskLength? (prefixMask 32 n) = some n := by
  have each : ∀ n < 33, maskLength? (prefixMask 32 n) = some n := by decide +kernel
  exact each n (Nat.lt_succ_of_le le)

theorem maskLength?_some {mask : BitVec 32} {n : Nat} (h : maskLength? mask = some n) :
    n ≤ 32 ∧ mask = prefixMask 32 n := by
  have inside := List.mem_range.mp (List.mem_of_find?_eq_some h)
  have found := List.find?_some (p := fun n => prefixMask 32 n == mask) h
  exact ⟨Nat.le_of_lt_succ inside, (eq_of_beq found).symm⟩

variable {address length : List Char} {n : Network}

/-- An address and a number behind a slash are a network. -/
theorem parse?_number (first : '/' ∉ address) (last : '/' ∉ length)
    (read : Address.parse? address = some n.address)
    (number : number? n.address.family.width length = some n.length) :
    parse? (address ++ '/' :: length) = some n := by
  obtain ⟨a, len, le⟩ := n
  have made : mk? a len = some ⟨a, len, le⟩ := dif_pos le
  have plain := Address.dotted?_plain (beq_of_not_mem ((number?_iff.mp number).1.not_mem (by decide) (by decide)))
  rw [parse?, pieces_append (beq_of_not_mem first) rfl, pieces_single (beq_of_not_mem last)]
  dsimp only at read ⊢
  rw [read]
  cases a with
  | v4 b =>
    dsimp only
    rw [length4?, plain]
    exact (congrArg (Option.bind · _) number).trans made
  | v6 b => exact (congrArg (Option.bind · _) number).trans made

/-- An IPv4 address and a mask behind a slash are a network. -/
theorem parse?_mask {b : BitVec 32} {len : Nat} (le : len ≤ 32) (first : '/' ∉ address) (last : '/' ∉ length)
    (read : Address.parse? address = some (.v4 b))
    (ones : Address.dotted? length = some (prefixMask 32 len)) :
    parse? (address ++ '/' :: length) = some ⟨.v4 b, len, le⟩ := by
  have made : mk? (.v4 b) len = some ⟨.v4 b, len, le⟩ := dif_pos le
  rw [parse?, pieces_append (beq_of_not_mem first) rfl, pieces_single (beq_of_not_mem last)]
  dsimp only
  rw [read]
  dsimp only
  rw [length4?, ones]
  dsimp only
  rw [maskLength?_prefixMask le]
  exact made

/-- A network with a slash has an address before it and a number or a mask behind it. -/
theorem parse?_inv {cs : List Char} (slash : '/' ∈ cs) (h : parse? cs = some n) :
    ∃ address length, cs = address ++ '/' :: length ∧ '/' ∉ address ∧ '/' ∉ length ∧
      Address.parse? address = some n.address ∧
      (number? n.address.family.width length = some n.length ∨
        n.address.family = .ipv4 ∧ Address.dotted? length = some (prefixMask 32 n.length)) := by
  have made : ∀ {a : Address} {len : Nat}, mk? a len = some n → n.address = a ∧ n.length = len := by
    intro a len h
    unfold mk? at h
    split at h
    · cases h
      exact ⟨rfl, rfl⟩
    · cases h
  unfold parse? at h
  split at h
  · rename_i a whole
    exact absurd (pieces_one whole).2 (not_not.mpr slash)
  · rename_i a len parts
    obtain ⟨rfl, first, last⟩ := pieces_two parts
    refine ⟨a, len, rfl, first, last, ?_⟩
    split at h
    · rename_i b read
      obtain ⟨bits, found, network⟩ := Option.bind_eq_some_iff.mp h
      obtain ⟨address, length⟩ := made network
      rw [address, length]
      refine ⟨read, ?_⟩
      unfold length4? at found
      split at found
      · rename_i mask dotted
        obtain ⟨-, rfl⟩ := maskLength?_some found
        exact .inr ⟨rfl, dotted⟩
      · exact .inl found
    · rename_i b read
      obtain ⟨bits, found, network⟩ := Option.bind_eq_some_iff.mp h
      obtain ⟨address, length⟩ := made network
      rw [address, length]
      exact ⟨read, .inl found⟩
    · cases h
  · cases h

end Network

end Firewall
