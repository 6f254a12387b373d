import Firewall.Bytes
import Firewall.Utf8
import Mathlib.Data.Nat.Notation

namespace Firewall.Utf8

theorem nextChar_ascii {v : Nat} (h : v ≤ 0x7F) (bs : List UInt8) :
    nextChar (UInt8.ofNat v) bs = (Char.ofNat v, bs) := by
  have value : (UInt8.ofNat v).toNat = v := by simp; omega
  rw [nextChar, value, if_pos (by omega)]

theorem nextChar_lead {b count low high : Nat} {bs : List UInt8} (hb : 0x80 ≤ b) (hb' : b < 256)
    (h : following? b = some (count, low, high)) :
    nextChar (UInt8.ofNat b) bs = continueChar (leadBits b count) low high count bs := by
  have value : (UInt8.ofNat b).toNat = b := by simp; omega
  rw [nextChar, value, if_neg (by omega), h]

theorem continueChar_tail {acc low high count t : Nat} {bs : List UInt8} (ht : t < 64)
    (hl : low ≤ t + 0x80) (hh : t + 0x80 ≤ high) :
    continueChar acc low high (count + 1) (UInt8.ofNat (t + 0x80) :: bs) =
      continueChar (acc * 64 + t) 0x80 0xBF count bs := by
  have value : (UInt8.ofNat (t + 0x80)).toNat = t + 0x80 := by simp; omega
  have bits : (t + 0x80) % 64 = t := by omega
  rw [continueChar, value, if_pos ⟨hl, hh⟩, bits]

/-- The second byte of a character is within the bounds that its first byte gives. -/
theorem following_three {v : Nat} (low : 0x7FF < v) (high : v ≤ 0xFFFF)
    (valid : v < 0xD800 ∨ 0xDFFF < v) :
    ∃ l h, following? (v / 4096 % 16 + 0xE0) = some (2, l, h) ∧
      l ≤ v / 64 % 64 + 0x80 ∧ v / 64 % 64 + 0x80 ≤ h := by
  unfold following?
  rw [if_neg (by omega)]
  split
  · exact ⟨_, _, rfl, by omega, by omega⟩
  · split
    · exact ⟨_, _, rfl, by omega, by omega⟩
    · rw [if_pos (by omega)]
      exact ⟨_, _, rfl, by omega, by omega⟩

theorem following_four {v : Nat} (low : 0xFFFF < v) (high : v < 0x110000) :
    ∃ l h, following? (v / 262144 % 8 + 0xF0) = some (3, l, h) ∧
      l ≤ v / 4096 % 64 + 0x80 ∧ v / 4096 % 64 + 0x80 ≤ h := by
  unfold following?
  rw [if_neg (by omega), if_neg (by omega), if_neg (by omega), if_neg (by omega)]
  split
  · exact ⟨_, _, rfl, by omega, by omega⟩
  · split
    · exact ⟨_, _, rfl, by omega, by omega⟩
    · rw [if_pos (by omega)]
      exact ⟨_, _, rfl, by omega, by omega⟩

theorem decode_lead {b : UInt8} {bs rest : List UInt8} {c : Char} (h : nextChar b bs = (c, rest)) :
    decode (b :: bs) = c :: decode rest := by
  rw [decode, h]

theorem decode_encodeChar (c : Char) (rest : List UInt8) :
    decode (String.utf8EncodeChar c ++ rest) = c :: decode rest := by
  have char : Char.ofNat c.val.toNat = c := Char.ofNat_toNat c
  have valid := c.valid
  simp only [UInt32.isValidChar, Nat.isValidChar] at valid
  unfold String.utf8EncodeChar
  generalize c.val.toNat = v at char valid
  simp only
  split
  · rw [List.cons_append, List.nil_append]
    apply decode_lead
    rw [nextChar_ascii (by assumption), char]
  split
  · have lead : following? (v / 64 % 32 + 0xC0) = some (1, 0x80, 0xBF) := if_pos (by omega)
    have bits : leadBits (v / 64 % 32 + 0xC0) 1 * 64 + v % 64 = v := by
      simp only [leadBits, Nat.reduceShiftLeft, Nat.reduceSub]
      omega
    simp only [List.cons_append, List.nil_append]
    apply decode_lead
    rw [nextChar_lead (by omega) (by omega) lead,
      continueChar_tail (by omega) (by omega) (by omega), bits, continueChar, char]
  split
  · obtain ⟨l, h, lead, hl, hh⟩ := following_three (v := v) (by omega) (by omega) (by omega)
    have bits : (leadBits (v / 4096 % 16 + 0xE0) 2 * 64 + v / 64 % 64) * 64 + v % 64 = v := by
      simp only [leadBits, Nat.reduceShiftLeft, Nat.reduceSub]
      omega
    simp only [List.cons_append, List.nil_append]
    apply decode_lead
    rw [nextChar_lead (by omega) (by omega) lead, continueChar_tail (by omega) hl hh,
      continueChar_tail (by omega) (by omega) (by omega), bits, continueChar, char]
  · obtain ⟨l, h, lead, hl, hh⟩ := following_four (v := v) (by omega) (by omega)
    have bits : ((leadBits (v / 262144 % 8 + 0xF0) 3 * 64 + v / 4096 % 64) * 64 + v / 64 % 64) *
        64 + v % 64 = v := by
      simp only [leadBits, Nat.reduceShiftLeft, Nat.reduceSub]
      omega
    simp only [List.cons_append, List.nil_append]
    apply decode_lead
    rw [nextChar_lead (by omega) (by omega) lead, continueChar_tail (by omega) hl hh,
      continueChar_tail (by omega) (by omega) (by omega),
      continueChar_tail (by omega) (by omega) (by omega), bits, continueChar, char]

theorem decode_ofText_append (cs : List Char) (rest : List UInt8) :
    decode (Bytes.ofText cs ++ rest) = cs ++ decode rest := by
  induction cs with
  | nil => rfl
  | cons c cs ih =>
    rw [Bytes.ofText, List.flatMap_cons, List.append_assoc, decode_encodeChar]
    exact congrArg (List.cons c) ih

theorem decode_ofText (cs : List Char) : decode (Bytes.ofText cs) = cs := by
  have h := decode_ofText_append cs []
  rwa [List.append_nil, decode, List.append_nil] at h

theorem ofString_inj {s t : String} : Bytes.ofString s = Bytes.ofString t ↔ s = t := by
  constructor
  · intro h
    have texts := congrArg decode h
    rw [Bytes.ofString, Bytes.ofString, decode_ofText, decode_ofText] at texts
    exact String.toList_injective texts
  · intro h
    rw [h]

/-- A byte is zero only in the null character. -/
theorem null_of_zero_mem {c : Char} (h : 0 ∈ String.utf8EncodeChar c) : c = Char.ofNat 0 := by
  have char : Char.ofNat c.val.toNat = c := Char.ofNat_toNat c
  have nonzero (n : Nat) (hn : n % 256 ≠ 0) : (0 : UInt8) ≠ UInt8.ofNat n := by
    intro e
    have value := congrArg UInt8.toNat e
    rw [UInt8.toNat_ofNat'] at value
    exact hn value.symm
  unfold String.utf8EncodeChar at h
  generalize c.val.toNat = v at char h
  simp only at h
  split at h
  · by_cases zero : v % 256 = 0
    · rw [← char, show v = 0 by omega]
    · exact absurd (List.mem_singleton.1 h) (nonzero v zero)
  split at h
  · simp only [List.mem_cons, List.not_mem_nil, or_false] at h
    rcases h with h | h <;> exact absurd h (nonzero _ (by omega))
  split at h
  · simp only [List.mem_cons, List.not_mem_nil, or_false] at h
    rcases h with h | h | h <;> exact absurd h (nonzero _ (by omega))
  · simp only [List.mem_cons, List.not_mem_nil, or_false] at h
    rcases h with h | h | h | h <;> exact absurd h (nonzero _ (by omega))

theorem zero_not_mem_ofString {s : String} (h : Char.ofNat 0 ∉ s.toList) :
    0 ∉ Bytes.ofString s := by
  intro zero
  obtain ⟨c, hc, hz⟩ := List.mem_flatMap.1 zero
  exact h (null_of_zero_mem hz ▸ hc)

end Firewall.Utf8
