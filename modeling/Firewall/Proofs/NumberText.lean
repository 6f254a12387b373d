import Firewall.Proofs.Numeral
import Mathlib.Data.Nat.Digits.Defs

namespace Firewall.Text

/-- The number that decimal digits spell. -/
def spelled (ds : List Char) : Nat := Nat.ofDigits 10 (ds.reverse.map fun c => c.toNat - '0'.toNat)

/-- The texts of a number. -/
inductive IsNumber (n : Nat) : List Char → Prop where
  | bare {ds : List Char} (some : ds ≠ []) (digits : ∀ c ∈ ds, c.isDigit = true) (value : spelled ds = n) :
    IsNumber n ds
  | signed {ds : List Char} (some : ds ≠ []) (digits : ∀ c ∈ ds, c.isDigit = true) (value : spelled ds = n) :
    IsNumber n ('+' :: ds)

section Digits

variable {digit? : Char → Option Nat} {base : Nat} {isDigit : Char → Prop} [DecidablePred isDigit]
  {value : Char → Nat} (reads : ∀ c, digit? c = if isDigit c then some (value c) else none)
include reads

/-- Behind a number, digits move it to the left by as many places. -/
theorem digitsFrom_iff {acc n : Nat} {ds : List Char} : digitsFrom digit? base acc ds = some n ↔
    (∀ c ∈ ds, isDigit c) ∧ acc * base ^ ds.length + Nat.ofDigits base (ds.reverse.map value) = n := by
  induction ds generalizing acc with
  | nil => simp [digitsFrom]
  | cons c ds ih =>
    rw [digitsFrom, reads]
    by_cases digit : isDigit c
    · have moved : (acc * base + value c) * base ^ ds.length + Nat.ofDigits base (ds.reverse.map value) =
          acc * base ^ (c :: ds).length + Nat.ofDigits base ((c :: ds).reverse.map value) := by
        rw [List.reverse_cons, List.map_append, Nat.ofDigits_append, List.length_map, List.length_reverse,
          List.map_cons, List.map_nil, Nat.ofDigits_singleton, List.length_cons, pow_succ]
        ring
      rw [if_pos digit]
      dsimp only
      rw [ih, moved, List.forall_mem_cons]
      simp [digit]
    · simp [digit]

theorem digits?_iff {n : Nat} {ds : List Char} : digits? digit? base ds = some n ↔
    ds ≠ [] ∧ (∀ c ∈ ds, isDigit c) ∧ Nat.ofDigits base (ds.reverse.map value) = n := by
  cases ds with
  | nil => simp [digits?]
  | cons c ds =>
    rw [digits?, digitsFrom_iff reads, Nat.zero_mul, Nat.zero_add]
    simp

/-- A plus sign may be left out where it is no digit. -/
theorem digits?_dropPlus_iff (noDigit : ¬isDigit '+') {n : Nat} {cs : List Char} :
    digits? digit? base (dropPlus cs) = some n ↔
      digits? digit? base cs = some n ∨ ∃ ds, cs = '+' :: ds ∧ digits? digit? base ds = some n := by
  have noSign : ∀ ds, digits? digit? base ('+' :: ds) ≠ some n := fun ds read =>
    noDigit (((digits?_iff reads).mp read).2.1 '+' List.mem_cons_self)
  unfold dropPlus
  split
  · rename_i ds
    constructor
    · exact fun read => .inr ⟨ds, rfl, read⟩
    · rintro (read | ⟨_, same, read⟩)
      · exact absurd read (noSign ds)
      · cases same
        exact read
  · rename_i unsigned
    constructor
    · exact .inl
    · rintro (read | ⟨ds, signed, -⟩)
      · exact read
      · exact absurd signed (unsigned ds)

end Digits

theorem decimalDigit?_eq (c : Char) :
    decimalDigit? c = if c.isDigit = true then some (c.toNat - '0'.toNat) else none := rfl

/-- Exactly the numbers up to the bound are read, in all their texts. -/
theorem number?_iff {max n : Nat} {cs : List Char} :
    number? max cs = some n ↔ IsNumber n cs ∧ n ≤ max := by
  rw [number?, Option.filter_eq_some_iff, decide_eq_true_iff,
    digits?_dropPlus_iff decimalDigit?_eq (by decide)]
  simp only [digits?_iff decimalDigit?_eq]
  refine and_congr_left fun _ => ⟨?_, fun number => ?_⟩
  · rintro (⟨some, digits, value⟩ | ⟨ds, rfl, some, digits, value⟩)
    · exact .bare some digits value
    · exact .signed some digits value
  · cases number with
    | bare some digits value => exact .inl ⟨some, digits, value⟩
    | signed some digits value => exact .inr ⟨_, rfl, some, digits, value⟩

/-- A number ends in a digit. -/
theorem IsNumber.getLast_digit {n : Nat} {cs : List Char} (number : IsNumber n cs) :
    ∃ c, cs.getLast? = some c ∧ c.isDigit = true := by
  have last : ∀ {ds : List Char} (some : ds ≠ []), (∀ c ∈ ds, c.isDigit = true) →
      ∃ c, ds.getLast? = Option.some c ∧ c.isDigit = true := fun some digits =>
    ⟨_, List.getLast?_eq_some_getLast some, digits _ (List.getLast_mem some)⟩
  cases number with
  | bare some digits => exact last some digits
  | @signed ds some digits =>
    rw [List.getLast?_cons_of_ne_nil some]
    exact last some digits

/-- There is no character but digits and the sign in a number. -/
theorem IsNumber.not_mem {n : Nat} {cs : List Char} (number : IsNumber n cs) {c : Char}
    (other : c.isDigit = false) (noSign : c ≠ '+') : c ∉ cs := by
  have absent : ∀ {ds : List Char}, (∀ c ∈ ds, c.isDigit = true) → c ∉ ds := by
    intro ds digits member
    rw [digits c member] at other
    cases other
  cases number with
  | bare some digits => exact absent digits
  | signed some digits => exact List.not_mem_cons_of_ne_of_not_mem noSign (absent digits)

end Firewall.Text
