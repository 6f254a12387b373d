import Firewall.Json.Tree
import Firewall.Proofs.NumberText
import Mathlib.Data.List.TakeWhile

namespace Firewall.Json

def isNumeralChar (c : Char) : Bool :=
  c.isDigit || c == '.' || c == 'e' || c == 'E' || c == '+' || c == '-'

/-- A text with which no numeral in front of it goes on. -/
def EndsNumeral (rest : List Char) : Prop := ∀ c ∈ rest.head?, isNumeralChar c = false

def withRest (rest : List Char) (x : α × List Char) : α × List Char := (x.1, x.2 ++ rest)

section Append

variable {rest : List Char} (ends : EndsNumeral rest)
include ends

theorem EndsNumeral.no_digit : ∀ c ∈ rest.head?, c.isDigit = false := by
  intro c first
  have other := ends c first
  simp only [isNumeralChar, Bool.or_eq_false_iff] at other
  exact other.1.1.1.1.1

/-- No character that a numeral holds stands at the start of the text behind it. -/
theorem EndsNumeral.ne {c : Char} (numeral : isNumeralChar c = true) (cs : List Char) : rest ≠ c :: cs := by
  rintro rfl
  rw [ends c rfl] at numeral
  cases numeral

/-- A text goes on with a character only if it starts with it itself. -/
theorem EndsNumeral.starts {c : Char} (numeral : isNumeralChar c = true) {cs ds : List Char}
    (same : cs ++ rest = c :: ds) : ∃ es, cs = c :: es := by
  cases cs with
  | nil => exact absurd same (ends.ne numeral ds)
  | cons d es => exact ⟨es, by rw [(List.cons.inj same).1]⟩

theorem takeDigits_append (cs : List Char) : takeDigits (cs ++ rest) = withRest rest (takeDigits cs) := by
  have stop : rest.takeWhile Char.isDigit = [] ∧ rest.dropWhile Char.isDigit = rest := by
    cases rest with
    | nil => exact ⟨rfl, rfl⟩
    | cons c cs =>
      have other := ends.no_digit c rfl
      simp [other]
  induction cs with
  | nil => simp [takeDigits, withRest, stop]
  | cons c cs ih =>
    simp only [takeDigits, withRest, Prod.mk.injEq] at ih ⊢
    by_cases digit : c.isDigit = true
    · simp [digit, ih]
    · simp [digit]

theorem takeSomeDigits?_append (cs : List Char) :
    takeSomeDigits? (cs ++ rest) = (takeSomeDigits? cs).map (withRest rest) := by
  unfold takeSomeDigits?
  rw [takeDigits_append ends]
  rcases takeDigits cs with ⟨_ | ⟨d, ds⟩, left⟩ <;> rfl

theorem takeWhole?_append (cs : List Char) :
    takeWhole? (cs ++ rest) = (takeWhole? cs).map (withRest rest) := by
  by_cases zero : ∃ ds, cs = '0' :: ds
  · obtain ⟨ds, rfl⟩ := zero
    rfl
  · rw [takeWhole?.eq_2 _ fun ds same => zero (ends.starts (by decide) same),
      takeWhole?.eq_2 _ fun ds same => zero ⟨ds, same⟩, takeSomeDigits?_append ends]

theorem takeFraction?_append (cs : List Char) :
    takeFraction? (cs ++ rest) = (takeFraction? cs).map (withRest rest) := by
  by_cases point : ∃ ds, cs = '.' :: ds
  · obtain ⟨ds, rfl⟩ := point
    rw [List.cons_append, takeFraction?, takeFraction?, takeSomeDigits?_append ends]
    cases takeSomeDigits? ds <;> rfl
  · rw [takeFraction?.eq_2 _ fun ds same => point (ends.starts (by decide) same),
      takeFraction?.eq_2 _ fun ds same => point ⟨ds, same⟩]
    rfl

theorem takeSigned?_append (cs : List Char) :
    takeSigned? (cs ++ rest) = (takeSigned? cs).map (withRest rest) := by
  by_cases minus : ∃ ds, cs = '-' :: ds
  · obtain ⟨ds, rfl⟩ := minus
    rw [List.cons_append, takeSigned?, takeSigned?, takeSomeDigits?_append ends]
    cases takeSomeDigits? ds <;> rfl
  · by_cases plus : ∃ ds, cs = '+' :: ds
    · obtain ⟨ds, rfl⟩ := plus
      rw [List.cons_append, takeSigned?, takeSigned?, takeSomeDigits?_append ends]
      cases takeSomeDigits? ds <;> rfl
    · rw [takeSigned?.eq_3 _ (fun ds same => minus (ends.starts (by decide) same))
          (fun ds same => plus (ends.starts (by decide) same)),
        takeSigned?.eq_3 _ (fun ds same => minus ⟨ds, same⟩) (fun ds same => plus ⟨ds, same⟩),
        takeSomeDigits?_append ends]
      cases takeSomeDigits? cs <;> rfl

theorem takeExponent?_append (cs : List Char) :
    takeExponent? (cs ++ rest) = (takeExponent? cs).map (withRest rest) := by
  cases cs with
  | nil =>
    cases rest with
    | nil => rfl
    | cons c rest =>
      have other : ¬(c = 'e' ∨ c = 'E') := by
        rintro (rfl | rfl)
        · exact ends.ne (by decide) rest rfl
        · exact ends.ne (by decide) rest rfl
      rw [List.nil_append, takeExponent?, if_neg other]
      rfl
  | cons c cs =>
    rw [List.cons_append, takeExponent?, takeExponent?]
    split
    · rw [takeSigned?_append ends]
      cases takeSigned? cs <;> rfl
    · rfl

theorem takeMinus_append (cs : List Char) : takeMinus (cs ++ rest) = withRest rest (takeMinus cs) := by
  by_cases minus : ∃ ds, cs = '-' :: ds
  · obtain ⟨ds, rfl⟩ := minus
    rfl
  · rw [takeMinus.eq_2 _ fun ds same => minus (ends.starts (by decide) same),
      takeMinus.eq_2 _ fun ds same => minus ⟨ds, same⟩]
    rfl

/-- A numeral is found as far as it goes, whatever stands behind it. -/
theorem Numeral.scan?_append (cs : List Char) : scan? (cs ++ rest) = (scan? cs).map (withRest rest) := by
  simp only [scan?, takeMinus_append ends, withRest, takeWhole?_append ends, Option.bind_eq_bind, Option.pure_def]
  cases takeWhole? (takeMinus cs).2 with
  | none => rfl
  | some whole =>
    simp only [Option.map_some, Option.bind_some, withRest, takeFraction?_append ends]
    cases takeFraction? whole.2 with
    | none => rfl
    | some fraction =>
      simp only [Option.map_some, Option.bind_some, withRest, takeExponent?_append ends]
      cases takeExponent? fraction.2 <;> rfl

end Append

/-- A numeral that a number is written with and that says this number. -/
def Number.ReadsBack (n : Number) : Prop :=
  ∃ numeral, Numeral.scan? n.text = some (numeral, []) ∧ numeral.value? = some n

def digitValue (c : Char) : Nat := c.toNat - 48

/-- The digits of a number in 64 bits all belong to its significand. -/
theorem fillSignificand_digits {acc n : Nat} {cs : List Char}
    (spelled : Text.digitsFrom Text.decimalDigit? 10 acc cs = some n) (small : n < 2 ^ 64) :
    fillSignificand acc (cs.map digitValue) = (n, []) := by
  induction cs generalizing acc with
  | nil =>
    cases spelled
    rfl
  | cons c cs ih =>
    rw [Text.digitsFrom, Text.decimalDigit?_eq] at spelled
    split at spelled
    · rename_i d digit
      split at digit
      · cases digit
        have value := ((Text.digitsFrom_iff Text.decimalDigit?_eq).mp spelled).2
        have grows : acc * 10 + digitValue c ≤ n := by
          rw [← value]
          exact Nat.le_add_right_of_le (Nat.le_mul_of_pos_right _ (by positivity))
        rw [List.map_cons, fillSignificand, if_pos (by omega)]
        exact ih spelled
      · cases digit
    · cases spelled

/-- The digits of a number, which do not start with a zero unless it is all there is. -/
theorem takeWhole?_decimal (n : Nat) :
    takeWhole? (Text.decimal n) = some ((Text.decimal n).map digitValue, []) := by
  have digits : ∀ c ∈ Text.decimal n, c.isDigit = true := by
    intro c member
    have digit := Text.decimal_numerals.isSome_digit n c member
    rw [Text.decimalDigit?_eq] at digit
    by_contra other
    rw [if_neg other] at digit
    cases digit
  by_cases zero : ∃ ds, Text.decimal n = '0' :: ds
  · obtain ⟨ds, starts⟩ := zero
    have zero : n = 0 := Text.decimal_numerals.head_zero starts
    subst zero
    rw [show Text.decimal 0 = ['0'] by rw [Text.decimal]; rfl]
    rfl
  · rw [takeWhole?.eq_2 _ fun ds same => zero ⟨ds, same⟩, takeSomeDigits?, takeDigits,
      List.takeWhile_eq_self_iff.mpr digits, List.dropWhile_eq_nil_iff.mpr digits]
    cases some : Text.decimal n with
    | nil => exact absurd some (Text.decimal_numerals.ne_nil n)
    | cons c cs => rfl

theorem scan?_decimal (n : Nat) :
    Numeral.scan? (Text.decimal n) = some (⟨false, (Text.decimal n).map digitValue, none, none⟩, []) := by
  have unsigned : takeMinus (Text.decimal n) = (false, Text.decimal n) := by
    refine takeMinus.eq_2 _ fun ds same => ?_
    have minus : '-' ∈ Text.decimal n := by
      rw [same]
      exact List.mem_cons_self
    exact Text.decimal_numerals.not_mem (by decide) n minus
  rw [Numeral.scan?, unsigned]
  dsimp only
  rw [takeWhole?_decimal]
  rfl

theorem scan?_minus_decimal (n : Nat) :
    Numeral.scan? ('-' :: Text.decimal n) = some (⟨true, (Text.decimal n).map digitValue, none, none⟩, []) := by
  rw [Numeral.scan?, takeMinus]
  dsimp only
  rw [takeWhole?_decimal]
  rfl

/-- Integers of 64 bits, signed or not, are read as they were written. -/
theorem Number.readsBack_int {i : Int} (low : -2 ^ 63 ≤ i) (high : i < 2 ^ 64) : (Number.int i).ReadsBack := by
  cases i with
  | ofNat n =>
    refine ⟨_, scan?_decimal n, ?_⟩
    have filled := fillSignificand_digits (Text.decimal_numerals.digitsFrom_numeral n)
      (by simp only [Int.ofNat_eq_natCast] at high; omega)
    simp [Numeral.value?, filled]
  | negSucc n =>
    refine ⟨_, scan?_minus_decimal (n + 1), ?_⟩
    have small : n + 1 ≤ 2 ^ 63 := by
      rw [Int.negSucc_eq] at low
      omega
    have filled := fillSignificand_digits (Text.decimal_numerals.digitsFrom_numeral (n + 1)) (by omega)
    have negated : (-(n + 1 : Nat) : Int) = Int.negSucc n := rfl
    simp only [Numeral.value?, filled, negated]
    rw [if_neg (by simp), if_neg (by simp), if_pos (by omega)]

/-- The piece between the quotes that is written for a character stands for it. -/
structure Piece.Writes (p : Piece) (c : Char) : Prop where
  taken : ∀ cs, takePieces? (escapeChar c ++ cs) = (takePieces? cs).map fun x => (p :: x.1, x.2)
  joined : ∀ ps, joinPieces? (p :: ps) = (joinPieces? ps).map (c :: ·)

/-- Behind a backslash, a letter other than that of the units stands for a character or for none. -/
theorem takePieces?_letter {e : Char} (noUnit : e ≠ 'u') (cs : List Char) : takePieces? ('\\' :: e :: cs) =
    (escaped? e).bind fun c => (takePieces? cs).map fun x => (.char c :: x.1, x.2) := by
  rw [takePieces?.eq_3 e cs fun _ _ _ _ _ same => absurd same noUnit]
  cases escaped? e <;> rfl

theorem Piece.writes_letter {c e : Char} (letter : escaped? e = some c) (written : escapeChar c = ['\\', e]) :
    (Piece.char c).Writes c where
  joined _ := rfl
  taken cs := by
    have noUnit : e ≠ 'u' := by
      rintro rfl
      cases letter
    rw [written]
    show takePieces? ('\\' :: e :: cs) = _
    rw [takePieces?_letter noUnit, letter]
    rfl

theorem hexDigits_control : ∀ n < 32, Text.digits? Text.hexDigit? 16
    ['0', '0', Text.digitChar (n / 16), Text.digitChar (n % 16)] = some n := by decide

theorem Piece.writes_control {c : Char} (control : c.toNat < 0x20)
    (written : escapeChar c = '\\' :: 'u' :: '0' :: '0' :: Text.hexBytes [UInt8.ofNat c.toNat]) :
    (Piece.unit c.toNat).Writes c where
  joined ps := by
    rw [joinPieces?.eq_def]
    dsimp only
    rw [if_neg (by omega), if_neg (by omega), Char.ofNat_toNat]
  taken cs := by
    have byte : (UInt8.ofNat c.toNat).toNat = c.toNat := UInt8.toNat_ofNat_of_lt' (Nat.lt_trans control (by decide))
    rw [written]
    show takePieces? ('\\' :: 'u' :: '0' :: '0' :: Text.digitChar ((UInt8.ofNat c.toNat).toNat / 16) ::
      Text.digitChar ((UInt8.ofNat c.toNat).toNat % 16) :: cs) = _
    rw [byte, takePieces?, hexDigits_control c.toNat control]

/-- Without a backslash, a character stands for itself or ends the string. -/
theorem takePieces?_cons {c : Char} (noEscape : c ≠ '\\') (cs : List Char) : takePieces? (c :: cs) =
    if c = '"' then some ([], cs)
    else if c.toNat < 0x20 then none
    else (takePieces? cs).map fun x => (.char c :: x.1, x.2) := by
  rw [takePieces?.eq_4 c cs (fun _ _ _ _ _ same => absurd same noEscape) fun _ _ same => absurd same noEscape]
  simp only [noEscape, or_false]

theorem Piece.writes_self {c : Char} (noQuote : c ≠ '"') (noEscape : c ≠ '\\') (printed : ¬c.toNat < 0x20)
    (written : escapeChar c = [c]) : (Piece.char c).Writes c where
  joined _ := rfl
  taken cs := by
    rw [written, List.singleton_append, takePieces?_cons noEscape, if_neg noQuote, if_neg printed]

/-- Control characters have a letter or are written with their numbers. -/
theorem escapeChar_control {c : Char} (control : c.toNat < 0x20) :
    (∃ e, escaped? e = some c ∧ escapeChar c = ['\\', e]) ∨
      escapeChar c = '\\' :: 'u' :: '0' :: '0' :: Text.hexBytes [UInt8.ofNat c.toNat] := by
  have all : ∀ n < 0x20,
      ['b', 't', 'n', 'f', 'r'].any (fun e =>
        escaped? e == some (Char.ofNat n) && escapeChar (Char.ofNat n) == ['\\', e]) = true ∨
      escapeChar (Char.ofNat n) =
        '\\' :: 'u' :: '0' :: '0' :: Text.hexBytes [UInt8.ofNat (Char.ofNat n).toNat] := by decide
  have written := all c.toNat control
  rw [Char.ofNat_toNat] at written
  refine written.imp_left fun named => ?_
  obtain ⟨e, -, both⟩ := List.any_eq_true.mp named
  obtain ⟨letter, written⟩ := Bool.and_eq_true_iff.mp both
  exact ⟨e, eq_of_beq letter, eq_of_beq written⟩

/-- All other characters but the quote and the backslash are written as they are. -/
theorem escapeChar_self {c : Char} (noQuote : c ≠ '"') (noEscape : c ≠ '\\') (printed : ¬c.toNat < 0x20) :
    escapeChar c = [c] := by
  have other : ∀ d : Char, d.toNat < 0x20 → c ≠ d := by
    rintro d small rfl
    exact printed small
  rw [escapeChar, if_neg noQuote, if_neg noEscape, if_neg (by omega), if_neg (other _ (by decide)),
    if_neg (other _ (by decide)), if_neg (by omega), if_neg (other _ (by decide)), if_neg printed]

/-- Every character is written as one piece. -/
theorem exists_writes (c : Char) : ∃ p : Piece, p.Writes c := by
  by_cases quote : c = '"'
  · subst quote
    exact ⟨_, Piece.writes_letter (e := '"') rfl rfl⟩
  by_cases escape : c = '\\'
  · subst escape
    exact ⟨_, Piece.writes_letter (e := '\\') rfl rfl⟩
  by_cases control : c.toNat < 0x20
  · rcases escapeChar_control control with ⟨e, letter, written⟩ | written
    · exact ⟨_, Piece.writes_letter letter written⟩
    · exact ⟨_, Piece.writes_control control written⟩
  · exact ⟨_, Piece.writes_self quote escape control (escapeChar_self quote escape control)⟩

/-- What is between the quotes of a string says its characters. -/
theorem takePieces?_escaped (cs rest : List Char) : ∃ ps,
    takePieces? (cs.flatMap escapeChar ++ '"' :: rest) = some (ps, rest) ∧ joinPieces? ps = some cs := by
  induction cs with
  | nil => exact ⟨[], by simp [takePieces?], rfl⟩
  | cons c cs ih =>
    obtain ⟨ps, taken, joined⟩ := ih
    obtain ⟨p, writes⟩ := exists_writes c
    refine ⟨p :: ps, ?_, ?_⟩
    · rw [List.flatMap_cons, List.append_assoc, writes.taken, taken]
      rfl
    · rw [writes.joined, joined]
      rfl

theorem scanToken?_quote (s : String) (rest : List Char) :
    scanToken? (quote s ++ rest) = some (.string (some s), rest) := by
  obtain ⟨ps, taken, joined⟩ := takePieces?_escaped s.toList rest
  rw [quote, List.append_assoc, List.cons_append, scanToken?, List.singleton_append, taken]
  simp [joined]

/-- A numeral starts with one of its characters. -/
theorem Numeral.scan?_starts {cs : List Char} {x : Numeral × List Char} (scanned : scan? cs = some x) :
    ∃ c ds, cs = c :: ds ∧ isNumeralChar c = true := by
  cases cs with
  | nil => cases scanned
  | cons c ds =>
    refine ⟨c, ds, rfl, ?_⟩
    by_contra other
    have stops : EndsNumeral (c :: ds) := by
      intro d first
      cases first
      exact Bool.eq_false_of_not_eq_true other
    have none := Numeral.scan?_append stops []
    rw [List.nil_append, scanned] at none
    cases none

theorem scanToken?_numeral {cs rest : List Char} {n : Numeral} (scanned : Numeral.scan? cs = some (n, rest)) :
    scanToken? cs = some (.number n.value?, rest) := by
  obtain ⟨c, ds, rfl, numeral⟩ := Numeral.scan?_starts scanned
  have other : ∀ d : Char, isNumeralChar d = false → ∀ es, c :: ds = d :: es → False := by
    rintro d foreign es same
    cases same
    rw [numeral] at foreign
    cases foreign
  rw [scanToken?.eq_11 _ (other _ rfl) (other _ rfl) (other _ rfl) (other _ rfl) (other _ rfl) (other _ rfl)
    (fun _ => other _ rfl _) (fun _ => other _ rfl _) (fun _ => other _ rfl _) (other _ rfl), scanned]
  rfl

theorem scanToken?_number {n : Number} (readsBack : n.ReadsBack) {rest : List Char} (ends : EndsNumeral rest) :
    scanToken? (n.text ++ rest) = some (.number (some n), rest) := by
  obtain ⟨numeral, scanned, value⟩ := readsBack
  have behind : Numeral.scan? (n.text ++ rest) = some (numeral, rest) := by
    rw [Numeral.scan?_append ends, scanned]
    rfl
  rw [scanToken?_numeral behind, value]

/-- No token starts with a blank. -/
theorem scanToken?_space {c : Char} (space : isSpace c = true) (cs : List Char) : scanToken? (c :: cs) = none := by
  have blank : c = ' ' ∨ c = '\n' ∨ c = '\t' ∨ c = '\r' := by
    simpa [isSpace, or_assoc] using space
  rcases blank with rfl | rfl | rfl | rfl <;> rfl

theorem tokensFrom_token {before : List Token} {c : Char} {cs rest : List Char} {t : Token}
    (noSpace : ¬isSpace c = true) (scanned : scanToken? (c :: cs) = some (t, rest)) :
    tokensFrom before (c :: cs) = tokensFrom (t :: before) rest := by
  rw [tokensFrom, if_neg noSpace]
  split
  · rename_i scanned'
    rw [scanned] at scanned'
    cases scanned'
    rfl
  · rename_i none
    rw [none] at scanned
    cases scanned

theorem tokensFrom_none {before : List Token} {c : Char} {cs : List Char} (noSpace : ¬isSpace c = true)
    (none : scanToken? (c :: cs) = none) : tokensFrom before (c :: cs) = Option.none := by
  rw [tokensFrom, if_neg noSpace]
  split
  · rename_i scanned
    rw [none] at scanned
    cases scanned
  · rfl

/-- Tokens found before stand in front of those that are found after them. -/
theorem tokensFrom_append (after before : List Token) (cs : List Char) :
    tokensFrom (after ++ before) cs = (tokensFrom after cs).map (before.reverse ++ ·) := by
  induction after, cs using tokensFrom.induct with
  | case1 after => simp [tokensFrom]
  | case2 after c cs space ih => rw [tokensFrom, if_pos space, tokensFrom, if_pos space, ih]
  | case3 after c cs noSpace t rest scanned ih =>
    rw [tokensFrom_token noSpace scanned, tokensFrom_token noSpace scanned]
    exact ih
  | case4 after c cs noSpace none =>
    rw [tokensFrom_none noSpace none, tokensFrom_none noSpace none]
    rfl

theorem tokens?_nil : tokens? [] = some [] := by
  rw [tokens?, tokensFrom]
  rfl

theorem tokens?_space {c : Char} (space : isSpace c = true) (cs : List Char) : tokens? (c :: cs) = tokens? cs := by
  rw [tokens?, tokensFrom, if_pos space, tokens?]

theorem tokens?_token {t : Token} {cs rest : List Char} (scanned : scanToken? cs = some (t, rest)) :
    tokens? cs = (tokens? rest).map (t :: ·) := by
  cases cs with
  | nil => cases scanned
  | cons c cs =>
    have noSpace : ¬isSpace c = true := by
      intro space
      rw [scanToken?_space space] at scanned
      cases scanned
    rw [tokens?, tokensFrom_token noSpace scanned]
    exact tokensFrom_append [] [t] rest

theorem tokens?_none {c : Char} {cs : List Char} (noSpace : ¬isSpace c = true)
    (none : scanToken? (c :: cs) = none) : tokens? (c :: cs) = Option.none :=
  tokensFrom_none noSpace none

end Firewall.Json
