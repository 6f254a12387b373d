import Firewall.Bytes
import Mathlib.Data.List.Induction
import Mathlib.Tactic.Ring

namespace Firewall.Bytes

@[simp] theorem ofNat_length (len n : Nat) : (ofNat len n).length = len := by
  induction len generalizing n with
  | zero => rfl
  | succ len ih => simp [ofNat, ih]

@[simp] theorem ofNatHost_length (len n : Nat) : (ofNatHost len n).length = len := by
  induction len generalizing n with
  | zero => rfl
  | succ len ih => simp [ofNatHost, ih]

theorem toNat_concat (bs : List UInt8) (b : UInt8) :
    toNat (bs ++ [b]) = toNat bs * 256 + b.toNat := by
  simp [toNat]

theorem toNat_append (as bs : List UInt8) :
    toNat (as ++ bs) = toNat as * 256 ^ bs.length + toNat bs := by
  induction bs using List.reverseRecOn with
  | nil => simp [toNat]
  | append_singleton bs b ih =>
    rw [← List.append_assoc, toNat_concat, toNat_concat, ih, List.length_append, List.length_singleton,
      Nat.pow_succ]
    ring

theorem toNat_ofNat (len n : Nat) : toNat (ofNat len n) = n % 256 ^ len := by
  induction len generalizing n with
  | zero => simp [ofNat, toNat, Nat.mod_one]
  | succ len ih =>
    have split : n % (256 * 256 ^ len) = n % 256 + 256 * (n / 256 % 256 ^ len) := Nat.mod_mul
    have low : (UInt8.ofNat n).toNat = n % 256 := by simp
    rw [ofNat, toNat_concat, ih, low, Nat.pow_succ', split]
    omega

theorem toNat_ofNat_of_lt {len n : Nat} (h : n < 256 ^ len) : toNat (ofNat len n) = n := by
  rw [toNat_ofNat, Nat.mod_eq_of_lt h]

theorem toNat_lt (bs : List UInt8) : toNat bs < 256 ^ bs.length := by
  induction bs using List.reverseRecOn with
  | nil => simp [toNat]
  | append_singleton bs b ih =>
    have hb : b.toNat < 256 := b.toNat_lt
    rw [toNat_concat, List.length_append, List.length_singleton, Nat.pow_succ]
    omega

theorem toNat_take (bs : List UInt8) (n : Nat) :
    toNat (bs.take n) = toNat bs / 256 ^ (bs.length - n) := by
  have rest := toNat_lt (bs.drop n)
  have whole := toNat_append (bs.take n) (bs.drop n)
  rw [List.length_drop] at rest whole
  rw [List.take_append_drop] at whole
  rw [whole, Nat.mul_comm, Nat.mul_add_div (Nat.pow_pos (by decide)), Nat.div_eq_of_lt rest, Nat.add_zero]

theorem toNat_drop (bs : List UInt8) (n : Nat) :
    toNat (bs.drop n) = toNat bs % 256 ^ (bs.length - n) := by
  have rest := toNat_lt (bs.drop n)
  have whole := toNat_append (bs.take n) (bs.drop n)
  rw [List.length_drop] at rest whole
  rw [List.take_append_drop] at whole
  rw [whole, Nat.mul_comm, Nat.mul_add_mod, Nat.mod_eq_of_lt rest]

theorem ofNat_toNat (bs : List UInt8) : ofNat bs.length (toNat bs) = bs := by
  induction bs using List.reverseRecOn with
  | nil => rfl
  | append_singleton bs b ih =>
    have hb : b.toNat < 256 := b.toNat_lt
    have high : (toNat bs * 256 + b.toNat) / 256 = toNat bs := by omega
    have low : UInt8.ofNat (toNat bs * 256 + b.toNat) = b := by
      apply UInt8.toNat_inj.1
      simp only [UInt8.toNat_ofNat']
      omega
    rw [toNat_concat, List.length_append, List.length_singleton, ofNat, high, ih, low]

theorem ofNat_inj {len a b : Nat} (ha : a < 256 ^ len) (hb : b < 256 ^ len) :
    ofNat len a = ofNat len b ↔ a = b := by
  constructor
  · intro h
    have value := congrArg toNat h
    rwa [toNat_ofNat_of_lt ha, toNat_ofNat_of_lt hb] at value
  · intro h
    rw [h]

theorem beq_byte (a b : UInt8) : ([a] == [b]) = (a == b) := by
  rw [Bool.eq_iff_iff]
  simp

theorem order_self (bs : List UInt8) : order bs bs = .eq := by
  induction bs with
  | nil => rfl
  | cons b bs ih => simp [order, ih]

theorem order_swap (as bs : List UInt8) : order as bs = (order bs as).swap := by
  induction as generalizing bs with
  | nil => cases bs <;> rfl
  | cons a as ih =>
    cases bs with
    | nil => rfl
    | cons b bs =>
      unfold order
      by_cases less : a < b
      · have more : ¬ b < a := UInt8.not_lt.mpr (UInt8.le_of_lt less)
        rw [if_pos less, if_neg more, if_pos less]
        rfl
      · by_cases more : b < a
        · rw [if_neg less, if_pos more, if_pos more]
          rfl
        · rw [if_neg less, if_neg more, if_neg more, if_neg less]
          exact ih bs

theorem order_eq_iff {as bs : List UInt8} : order as bs = .eq ↔ as = bs := by
  constructor
  · intro h
    induction as generalizing bs with
    | nil =>
      cases bs with
      | nil => rfl
      | cons b bs => cases h
    | cons a as ih =>
      cases bs with
      | nil => cases h
      | cons b bs =>
        rw [order] at h
        split at h
        · cases h
        · rename_i notBelow
          split at h
          · cases h
          · rename_i notAbove
            have same : a = b := UInt8.le_antisymm (UInt8.not_lt.mp notAbove) (UInt8.not_lt.mp notBelow)
            rw [same, ih h]
  · intro h
    rw [h, order_self]

/-- Behind beginnings of one length the last bytes decide only if the beginnings are equal. -/
theorem order_concat (as bs : List UInt8) (a b : UInt8) (h : as.length = bs.length) :
    order (as ++ [a]) (bs ++ [b]) = (order as bs).then (order [a] [b]) := by
  induction as generalizing bs with
  | nil =>
    cases bs with
    | nil => rfl
    | cons b bs => simp at h
  | cons x as ih =>
    cases bs with
    | nil => simp at h
    | cons y bs =>
      have tails : as.length = bs.length := by simpa using h
      simp only [List.cons_append, order, ih bs tails]
      split
      · rfl
      · split <;> rfl

theorem order_byte (a b : UInt8) : order [a] [b] = compare a.toNat b.toNat := by
  simp only [order, UInt8.lt_iff_toNat_lt, Nat.compare_eq_ite_lt]

/-- Numbers of one width are ordered like their byte strings. -/
theorem order_ofNat {len a b : Nat} (ha : a < 256 ^ len) (hb : b < 256 ^ len) :
    order (ofNat len a) (ofNat len b) = compare a b := by
  induction len generalizing a b with
  | zero =>
    have za : a = 0 := by simpa using ha
    have zb : b = 0 := by simpa using hb
    subst za zb
    rfl
  | succ len ih =>
    rw [Nat.pow_succ] at ha hb
    have ha' : a / 256 < 256 ^ len := by omega
    have hb' : b / 256 < 256 ^ len := by omega
    rw [ofNat, ofNat, order_concat _ _ _ _ (by simp), ih ha' hb', order_byte]
    simp only [UInt8.toNat_ofNat', Nat.compare_eq_ite_lt, Nat.reducePow]
    rcases Nat.lt_trichotomy (a / 256) (b / 256) with lt | eq | gt
    · rw [if_pos lt, if_pos (show a < b by omega), Ordering.lt_then]
    · rw [eq, if_neg (Nat.lt_irrefl _), if_neg (Nat.lt_irrefl _), Ordering.eq_then]
      have first : a % 256 < b % 256 ↔ a < b := by omega
      have second : b % 256 < a % 256 ↔ b < a := by omega
      simp only [first, second]
    · rw [if_neg (by omega), if_pos gt, if_neg (show ¬a < b by omega),
        if_pos (show b < a by omega), Ordering.gt_then]

theorem le_ofNat {len a b : Nat} (ha : a < 256 ^ len) (hb : b < 256 ^ len) :
    le (ofNat len a) (ofNat len b) = decide (a ≤ b) := by
  rw [le, order_ofNat ha hb, Nat.compare_eq_ite_le]
  by_cases h : a ≤ b
  · by_cases h' : b ≤ a <;> simp [h, h']
  · simp [h]

/-- Byte strings of one length are ordered like the numbers that they spell. -/
theorem le_toNat {as bs : List UInt8} (h : as.length = bs.length) :
    le as bs = decide (toNat as ≤ toNat bs) := by
  have ha := ofNat_toNat as
  have hb := ofNat_toNat bs
  rw [h] at ha
  have order := le_ofNat (h ▸ toNat_lt as) (toNat_lt bs)
  rwa [ha, hb] at order

theorem toNat_inj {as bs : List UInt8} (h : as.length = bs.length) :
    toNat as = toNat bs ↔ as = bs := by
  constructor
  · intro e
    rw [← ofNat_toNat as, ← ofNat_toNat bs, h, e]
  · intro e
    rw [e]

theorem ofNat_and (len a m : Nat) :
    ofNat len (a &&& m) = List.zipWith (· &&& ·) (ofNat len a) (ofNat len m) := by
  induction len generalizing a m with
  | zero => rfl
  | succ len ih =>
    have high : (a &&& m) / 256 = a / 256 &&& m / 256 := Nat.and_div_two_pow (n := 8)
    have low : UInt8.ofNat (a &&& m) = UInt8.ofNat a &&& UInt8.ofNat m := by simp
    rw [ofNat, ofNat, ofNat, high, low, ih, List.zipWith_append (by simp)]
    rfl

theorem ofNatHost_and (len a m : Nat) :
    ofNatHost len (a &&& m) = List.zipWith (· &&& ·) (ofNatHost len a) (ofNatHost len m) := by
  induction len generalizing a m with
  | zero => rfl
  | succ len ih =>
    have high : (a &&& m) / 256 = a / 256 &&& m / 256 := Nat.and_div_two_pow (n := 8)
    have low : UInt8.ofNat (a &&& m) = UInt8.ofNat a &&& UInt8.ofNat m := by simp
    rw [ofNatHost, ofNatHost, ofNatHost, high, low, ih]
    rfl

theorem toNatHost_ofNatHost (len n : Nat) : toNatHost (ofNatHost len n) = n % 256 ^ len := by
  induction len generalizing n with
  | zero => simp [ofNatHost, toNatHost, Nat.mod_one]
  | succ len ih =>
    have split : n % (256 * 256 ^ len) = n % 256 + 256 * (n / 256 % 256 ^ len) := Nat.mod_mul
    have low : (UInt8.ofNat n).toNat = n % 256 := by simp
    rw [ofNatHost, toNatHost, ih, low, Nat.pow_succ', split]

theorem toNatHost_ofNatHost_of_lt {len n : Nat} (h : n < 256 ^ len) :
    toNatHost (ofNatHost len n) = n := by
  rw [toNatHost_ofNatHost, Nat.mod_eq_of_lt h]

theorem toNatHost_lt (bs : List UInt8) : toNatHost bs < 256 ^ bs.length := by
  induction bs with
  | nil => exact Nat.one_pos
  | cons b bs ih =>
    have low : b.toNat < 256 := b.toNat_lt
    rw [toNatHost, List.length_cons, Nat.pow_succ]
    omega

theorem ofNatHost_toNatHost (bs : List UInt8) : ofNatHost bs.length (toNatHost bs) = bs := by
  induction bs with
  | nil => rfl
  | cons b bs ih =>
    have low : b.toNat < 256 := b.toNat_lt
    have rest : (b.toNat + 256 * toNatHost bs) / 256 = toNatHost bs := by omega
    have first : UInt8.ofNat (b.toNat + 256 * toNatHost bs) = b := by
      rw [← UInt8.toNat_inj, UInt8.toNat_ofNat']
      omega
    rw [toNatHost, List.length_cons, ofNatHost, rest, ih, first]

theorem ofNatHost_inj {len a b : Nat} (ha : a < 256 ^ len) (hb : b < 256 ^ len) :
    ofNatHost len a = ofNatHost len b ↔ a = b := by
  constructor
  · intro h
    have value := congrArg toNatHost h
    rwa [toNatHost_ofNatHost, toNatHost_ofNatHost, Nat.mod_eq_of_lt ha, Nat.mod_eq_of_lt hb] at value
  · intro h
    rw [h]

end Firewall.Bytes
