import Firewall.Text.Numeral
import Mathlib.Algebra.Ring.Nat

namespace Firewall.Text

/-- A way of writing numbers in a base, with what its digits stand for. -/
structure Numerals (digit? : Char → Option Nat) (base : Nat) (numeral : Nat → List Char) : Prop where
  two_le : 2 ≤ base
  small : ∀ n, n < base → numeral n = [digitChar n]
  step : ∀ n, base ≤ n → numeral n = numeral (n / base) ++ [digitChar (n % base)]
  digit : ∀ d, d < base → digit? (digitChar d) = some d

theorem decimal_numerals : Numerals decimalDigit? 10 decimal where
  two_le := by decide
  small n h := by rw [decimal, if_pos h]
  step n h := by rw [decimal, if_neg (Nat.not_lt.mpr h)]
  digit := by decide

theorem hex_numerals : Numerals hexDigit? 16 hex where
  two_le := by decide
  small n h := by rw [hex, if_pos h]
  step n h := by rw [hex, if_neg (Nat.not_lt.mpr h)]
  digit := by decide

theorem digitsFrom_append (digit? : Char → Option Nat) (base acc : Nat) (cs ds : List Char) :
    digitsFrom digit? base acc (cs ++ ds) =
      (digitsFrom digit? base acc cs).bind fun a => digitsFrom digit? base a ds := by
  induction cs generalizing acc with
  | nil => rfl
  | cons c cs ih =>
    rw [List.cons_append, digitsFrom, digitsFrom]
    cases digit? c with
    | none => rfl
    | some d => exact ih _

namespace Numerals

variable {digit? : Char → Option Nat} {base : Nat} {numeral : Nat → List Char}
  (s : Numerals digit? base numeral)
include s

/-- Numbers are numbers below the base, or have a number before their last digit. -/
theorem induct {P : Nat → Prop} (small : ∀ n, n < base → P n)
    (step : ∀ n, base ≤ n → P (n / base) → P n) (n : Nat) : P n := by
  have two := s.two_le
  induction n using Nat.strongRecOn with
  | ind n ih =>
    by_cases h : n < base
    · exact small n h
    · have less : n / base < n := Nat.div_lt_self (by omega) two
      exact step n (Nat.not_lt.mp h) (ih _ less)

theorem last_lt (n : Nat) : n % base < base :=
  Nat.mod_lt n (Nat.lt_of_lt_of_le Nat.zero_lt_two s.two_le)

theorem ne_nil (n : Nat) : numeral n ≠ [] := by
  by_cases h : n < base
  · rw [s.small n h]
    exact List.cons_ne_nil _ _
  · rw [s.step n (Nat.not_lt.mp h)]
    exact List.append_ne_nil_of_right_ne_nil _ (List.cons_ne_nil _ _)

/-- A numeral consists of digits. -/
theorem isSome_digit (n : Nat) : ∀ c ∈ numeral n, (digit? c).isSome = true := by
  induction n using s.induct with
  | small n h =>
    intro c hc
    rw [s.small n h, List.mem_singleton] at hc
    rw [hc, s.digit n h]
    rfl
  | step n h ih =>
    intro c hc
    rw [s.step n h, List.mem_append, List.mem_singleton] at hc
    rcases hc with front | rfl
    · exact ih c front
    · rw [s.digit _ (s.last_lt n)]
      rfl

theorem not_mem {c : Char} (h : digit? c = none) (n : Nat) : c ∉ numeral n := by
  intro hc
  have digit := s.isSome_digit n c hc
  rw [h] at digit
  cases digit

theorem digitsFrom_numeral (n : Nat) : digitsFrom digit? base 0 (numeral n) = some n := by
  induction n using s.induct with
  | small n h =>
    rw [s.small n h, digitsFrom, s.digit n h]
    show some (0 * base + n) = some n
    rw [Nat.zero_mul, Nat.zero_add]
  | step n h ih =>
    rw [s.step n h, digitsFrom_append, ih, Option.bind_some, digitsFrom, s.digit _ (s.last_lt n)]
    show some (n / base * base + n % base) = some n
    rw [Nat.div_add_mod']

theorem digits?_numeral (n : Nat) : digits? digit? base (numeral n) = some n := by
  have spelled := s.digitsFrom_numeral n
  cases h : numeral n with
  | nil => exact absurd h (s.ne_nil n)
  | cons c cs =>
    rw [h] at spelled
    exact spelled

/-- A number below a power of the base has at most that many digits. -/
theorem length_le {k n : Nat} (h : n < base ^ (k + 1)) : (numeral n).length ≤ k + 1 := by
  induction k generalizing n with
  | zero =>
    rw [s.small n (by simpa using h)]
    exact Nat.le_refl 1
  | succ k ih =>
    by_cases hn : n < base
    · rw [s.small n hn]
      exact Nat.le_add_left 1 (k + 1)
    · rw [s.step n (Nat.not_lt.mp hn), List.length_append]
      have front : n / base < base ^ (k + 1) := by
        rw [Nat.div_lt_iff_lt_mul (Nat.lt_of_lt_of_le Nat.zero_lt_two s.two_le), ← Nat.pow_succ]
        exact h
      exact Nat.add_le_add_right (ih front) 1

/-- Only zero starts with the digit zero. -/
theorem head_zero {n : Nat} {cs : List Char} (h : numeral n = digitChar 0 :: cs) : n = 0 := by
  induction n using s.induct generalizing cs with
  | small n hn =>
    rw [s.small n hn] at h
    have digit := s.digit n hn
    rw [(List.cons.inj h).1, s.digit 0 (Nat.lt_of_lt_of_le Nat.zero_lt_two s.two_le)] at digit
    exact (Option.some.inj digit).symm
  | step n hn ih =>
    rw [s.step n hn] at h
    cases front : numeral (n / base) with
    | nil => exact absurd front (s.ne_nil _)
    | cons c ds =>
      rw [front, List.cons_append] at h
      rw [(List.cons.inj h).1] at front
      have none : n / base = 0 := ih front
      have positive : 0 < n / base :=
        Nat.div_pos hn (Nat.lt_of_lt_of_le Nat.zero_lt_two s.two_le)
      omega

end Numerals

/-- The numeral of a number is read back. -/
theorem number?_decimal {max n : Nat} (h : n ≤ max) : number? max (decimal n) = some n := by
  have plain : dropPlus (decimal n) = decimal n := by
    unfold dropPlus
    split
    · rename_i cs e
      have plus : '+' ∈ decimal n := by rw [e]; exact List.mem_cons_self
      exact absurd plus (decimal_numerals.not_mem (by decide) n)
    · rfl
  rw [number?, plain, decimal_numerals.digits?_numeral, Option.filter_some, if_pos]
  simpa using h

theorem number?_le {max n : Nat} {cs : List Char} (h : number? max cs = some n) : n ≤ max := by
  obtain ⟨-, small⟩ := Option.filter_eq_some_iff.mp h
  exact of_decide_eq_true small

end Firewall.Text
