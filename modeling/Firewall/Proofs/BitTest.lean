import Firewall.Program.Op
import Firewall.Proofs.HostBits
import Mathlib.Data.Nat.Bitwise

namespace Firewall

/-- Which bits of a number are looked at, and the number that they are compared with. -/
structure BitTest where
  mask : Nat
  value : Nat
  deriving DecidableEq, Repr

def Comparison.isEquality (c : Comparison) : Bool := c = .eq ∨ c = .ne

namespace BitTest

variable {c : Comparison} {t u : BitTest} {w n : Nat}

def holds (t : BitTest) (c : Comparison) (n : Nat) : Bool := c.ofOrder (compare (n &&& t.mask) t.value)

/-- Some number has the bits that are asked for: none of them is outside the mask. -/
def Possible (t : BitTest) : Prop := t.value &&& t.mask = t.value

instance (t : BitTest) : Decidable t.Possible := inferInstanceAs (Decidable (_ = _))

/-- The tests are the same, or ask for what no number has. -/
def Alike (c : Comparison) (t u : BitTest) : Prop :=
  t = u ∨ c.isEquality = true ∧ ¬t.Possible ∧ ¬u.Possible

instance (c : Comparison) (t u : BitTest) : Decidable (Alike c t u) := inferInstanceAs (Decidable (_ ∨ _))

/-- Mask and value are numbers of `w` bits. -/
structure Fits (t : BitTest) (w : Nat) : Prop where
  mask : t.mask < 2 ^ w
  value : t.value < 2 ^ w

theorem holds_eq : t.holds .eq n = decide (n &&& t.mask = t.value) := by
  rw [holds, Comparison.ofOrder, Bool.eq_iff_iff, beq_iff_eq, decide_eq_true_iff, Nat.compare_eq_eq]

theorem holds_ne : t.holds .ne n = !decide (n &&& t.mask = t.value) := by
  rw [← holds_eq]
  rfl

theorem impossible (h : ¬t.Possible) (n : Nat) : n &&& t.mask ≠ t.value := by
  intro same
  apply h
  rw [Possible, ← same, Nat.and_assoc, Nat.and_self]

theorem holds_alike (h : Alike c t u) (n : Nat) : t.holds c n = u.holds c n := by
  rcases h with rfl | ⟨equality, first, second⟩
  · rfl
  · cases c with
    | eq => simp [holds_eq, impossible first, impossible second]
    | ne => simp [holds_ne, impossible first, impossible second]
    | lt | le | gt | ge => cases equality

/-- Whether a bit is in the mask shows when it is changed in the value that is asked for. -/
theorem flipped_iff (h : t.Possible) (i : Nat) :
    (t.value ^^^ 2 ^ i) &&& t.mask = t.value ↔ t.mask.testBit i = false := by
  have positive : 0 < 2 ^ i := Nat.two_pow_pos i
  rw [Nat.and_xor_distrib_right, h, Nat.two_pow_and]
  constructor
  · intro same
    cases set : t.mask.testBit i with
    | false => rfl
    | true =>
      have zero := congrArg (t.value ^^^ ·) same
      simp only [← Nat.xor_assoc, Nat.xor_self, Nat.zero_xor, set, Bool.toNat_true] at zero
      omega
  · intro clear
    rw [clear]
    exact Nat.xor_zero _

/-- Tests with the same answers on all numbers of `w` bits are alike, if one number passes. -/
theorem eq_of_iff (ht : t.Fits w) (hu : u.Fits w) (possible : t.Possible)
    (same : ∀ n < 2 ^ w, n &&& t.mask = t.value ↔ n &&& u.mask = u.value) : t = u := by
  have first : t.value &&& u.mask = u.value := (same _ ht.value).mp possible
  have second : u.value &&& t.mask = t.value := by
    rw [same _ hu.value, ← first, Nat.and_assoc, Nat.and_self]
  have values : t.value = u.value := by
    apply Nat.eq_of_testBit_eq
    intro i
    have left := congrArg (Nat.testBit · i) first
    have right := congrArg (Nat.testBit · i) second
    simp only [Nat.testBit_and] at left right
    revert left right
    cases t.value.testBit i <;> cases u.value.testBit i <;> simp
  have possible' : u.Possible := by
    rw [Possible, ← values, first, values]
  have masks : t.mask = u.mask := by
    apply Nat.eq_of_testBit_eq
    intro i
    by_cases inside : i < w
    · have small : t.value ^^^ 2 ^ i < 2 ^ w :=
        Nat.xor_lt_two_pow ht.value (Nat.pow_lt_pow_right (by decide) inside)
      have clear := same _ small
      rw [flipped_iff possible, values, flipped_iff possible'] at clear
      cases ht' : t.mask.testBit i <;> cases hu' : u.mask.testBit i <;> simp_all
    · have beyond : 2 ^ w ≤ 2 ^ i := Nat.pow_le_pow_right (by decide) (Nat.le_of_not_lt inside)
      rw [Nat.testBit_lt_two_pow (Nat.lt_of_lt_of_le ht.mask beyond),
        Nat.testBit_lt_two_pow (Nat.lt_of_lt_of_le hu.mask beyond)]
  cases t
  cases u
  cases values
  cases masks
  rfl

/-- Tests for equality that are not alike differ on some number. -/
theorem exists_differ (ht : t.Fits w) (hu : u.Fits w) (equality : c.isEquality = true)
    (apart : ¬Alike c t u) : ∃ n < 2 ^ w, t.holds c n ≠ u.holds c n := by
  by_contra none
  have same : ∀ n < 2 ^ w, n &&& t.mask = t.value ↔ n &&& u.mask = u.value := by
    intro n small
    have answers : t.holds c n = u.holds c n := by
      by_contra differ
      exact none ⟨n, small, differ⟩
    cases c with
    | eq => simpa [holds_eq] using answers
    | ne => simpa [holds_ne] using answers
    | lt | le | gt | ge => cases equality
  apply apart
  by_cases first : t.Possible
  · exact .inl (eq_of_iff ht hu first same)
  · by_cases second : u.Possible
    · exact .inl (eq_of_iff hu ht second fun n small => (same n small).symm).symm
    · exact .inr ⟨equality, first, second⟩

end BitTest

namespace Bytes

def number (host : Bool) (bs : List UInt8) : Nat := if host then toNatHost bs else toNat bs

variable {host : Bool} {as bs : List UInt8}

theorem number_lt (host : Bool) (bs : List UInt8) : number host bs < 2 ^ (8 * bs.length) := by
  rw [Nat.pow_mul]
  cases host with
  | false => exact toNat_lt bs
  | true => exact toNatHost_lt bs

theorem number_inj (host : Bool) (same : as.length = bs.length) : number host as = number host bs ↔ as = bs := by
  cases host with
  | false => exact toNat_inj same
  | true =>
    constructor
    · intro h
      have spelled : toNatHost as = toNatHost bs := h
      rw [← ofNatHost_toNatHost as, ← ofNatHost_toNatHost bs, same, spelled]
    · intro h
      rw [h]

theorem number_and (host : Bool) (same : as.length = bs.length) :
    number host (List.zipWith (· &&& ·) as bs) = number host as &&& number host bs := by
  cases host with
  | false =>
    have small : toNat as &&& toNat bs < 256 ^ as.length := Nat.lt_of_le_of_lt Nat.and_le_left (toNat_lt as)
    have masked := ofNat_and as.length (toNat as) (toNat bs)
    rw [ofNat_toNat, same, ofNat_toNat, ← same] at masked
    exact (congrArg toNat masked).symm.trans (toNat_ofNat_of_lt small)
  | true =>
    have small : toNatHost as &&& toNatHost bs < 256 ^ as.length :=
      Nat.lt_of_le_of_lt Nat.and_le_left (toNatHost_lt as)
    have masked := ofNatHost_and as.length (toNatHost as) (toNatHost bs)
    rw [ofNatHost_toNatHost, same, ofNatHost_toNatHost, ← same] at masked
    exact (congrArg toNatHost masked).symm.trans (toNatHost_ofNatHost_of_lt small)

theorem order_toNat (same : as.length = bs.length) : order as bs = compare (toNat as) (toNat bs) := by
  have first := ofNat_toNat as
  rw [same] at first
  have numbers := order_ofNat (same ▸ toNat_lt as) (toNat_lt bs)
  rwa [first, ofNat_toNat] at numbers

end Bytes

/-- Byte strings of one width compare like the numbers of the network; as to equality, also like those of the
host. -/
theorem Comparison.holds_number {c : Comparison} {host : Bool} {as bs : List UInt8}
    (same : as.length = bs.length) (equality : host = true → c.isEquality = true) :
    c.holds as bs = c.ofOrder (compare (Bytes.number host as) (Bytes.number host bs)) := by
  cases host with
  | false => rw [holds, Bytes.order_toNat same, Bytes.number, Bytes.number, if_neg Bool.false_ne_true,
      if_neg Bool.false_ne_true]
  | true =>
    have numbers : compare (Bytes.number true as) (Bytes.number true bs) = .eq ↔ Bytes.order as bs = .eq := by
      rw [Nat.compare_eq_eq, Bytes.number_inj true same, Bytes.order_eq_iff]
    cases c with
    | eq => rw [holds, ofOrder, ofOrder, Bool.eq_iff_iff, beq_iff_eq, beq_iff_eq, numbers]
    | ne => rw [holds, ofOrder, ofOrder, Bool.eq_iff_iff, bne_iff_ne, bne_iff_ne, Ne, Ne, numbers]
    | lt | le | gt | ge => cases equality rfl

end Firewall
