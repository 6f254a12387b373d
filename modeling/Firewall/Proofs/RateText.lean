import Firewall.Proofs.ElementText
import Firewall.Proofs.NumberText
import Firewall.RateLimit

namespace Firewall

open Text

namespace Text

variable {sep : Char} {cs a b c : List Char}

theorem pieces_two_iff : pieces (· == sep) cs = [a, b] ↔ cs = a ++ sep :: b ∧ sep ∉ a ∧ sep ∉ b := by
  constructor
  · exact pieces_two
  · rintro ⟨rfl, first, last⟩
    rw [pieces_append (beq_of_not_mem first) (beq_self_eq_true sep), pieces_single (beq_of_not_mem last)]

/-- A text in three pieces is cut twice. -/
theorem pieces_three_iff : pieces (· == sep) cs = [a, b, c] ↔
    cs = a ++ sep :: (b ++ sep :: c) ∧ sep ∉ a ∧ sep ∉ b ∧ sep ∉ c := by
  constructor
  · intro h
    cases cut : splitOnce sep cs with
    | none =>
      rw [pieces_single (beq_of_not_mem (splitOnce_none.mp cut))] at h
      cases h
    | some parts =>
      obtain ⟨rfl, absent⟩ := splitOnce_some.mp cut
      rw [pieces_append (beq_of_not_mem absent) (beq_self_eq_true sep)] at h
      obtain ⟨rfl, rest⟩ := List.cons.inj h
      obtain ⟨whole, second, third⟩ := pieces_two rest
      exact ⟨by rw [whole], absent, second, third⟩
  · rintro ⟨rfl, first, rest⟩
    rw [pieces_append (beq_of_not_mem first) (beq_self_eq_true sep), pieces_two_iff.mpr ⟨rfl, rest⟩]

end Text

def Period.texts : Period → List String
  | second => ["second", "s"]
  | minute => ["minute", "m"]
  | hour => ["hour", "h"]
  | day => ["day", "d"]
  | week => ["week", "w"]

def RateUnit.text : RateUnit → String
  | packets => "p"
  | bytes => "b"

namespace RateLimit

/-- What a rate ends with if it asks for what is beyond it. -/
def mark (beyond : Bool) : List Char := if beyond then ['+'] else []

/-- The texts that say a rate: its number, its unit unless it counts packets, and its period. -/
inductive Says (rate : Nat) (per : Period) (beyond : Bool) : RateUnit → List Char → Prop where
  | packets {number period : List Char} (amount : IsNumber rate number)
    (span : String.ofList period ∈ per.texts) :
    Says rate per beyond .packets (number ++ mark beyond ++ '/' :: period)
  | counted {number period : List Char} (unit : RateUnit) (amount : IsNumber rate number)
    (span : String.ofList period ∈ per.texts) :
    Says rate per beyond unit (number ++ mark beyond ++ '/' :: (unit.text.toList ++ '/' :: period))

end RateLimit

theorem Period.ofText?_iff {cs : List Char} {p : Period} :
    ofText? cs = some p ↔ String.ofList cs ∈ p.texts := by
  constructor
  · intro h
    have found := List.find?_some h
    rw [decide_eq_true_iff] at found
    rcases found with rfl | rfl <;> cases p <;> decide
  · intro h
    have each : ∀ p : Period, ∀ t ∈ p.texts, ofText? t.toList = some p := by
      intro p
      cases p <;> decide
    have read := each p _ h
    rwa [String.toList_ofList] at read

theorem RateUnit.ofLetter?_iff {cs : List Char} {u : RateUnit} :
    ofLetter? cs = some u ↔ cs = u.text.toList := by
  constructor
  · intro h
    unfold ofLetter? at h
    split at h
    · cases h
      rfl
    · cases h
      rfl
    · cases h
  · rintro rfl
    cases u <;> rfl

theorem Period.slash_not_mem {p : Period} {cs : List Char} (span : String.ofList cs ∈ p.texts) : '/' ∉ cs := by
  have each : ∀ p : Period, ∀ t ∈ p.texts, '/' ∉ t.toList := by
    intro p
    cases p <;> decide
  have absent := each p _ span
  rwa [String.toList_ofList] at absent

namespace RateLimit

theorem splitBeyond_inv {cs number : List Char} {beyond : Bool} (h : splitBeyond cs = (number, beyond)) :
    cs = number ++ mark beyond := by
  unfold splitBeyond at h
  split at h
  · rename_i plus
    cases h
    exact (List.dropLast_append_getLast? '+' plus).symm
  · cases h
    exact (List.append_nil _).symm

/-- The mark is told from the number, which ends in a digit. -/
theorem splitBeyond_mark {rate : Nat} {number : List Char} (amount : IsNumber rate number) (beyond : Bool) :
    splitBeyond (number ++ mark beyond) = (number, beyond) := by
  cases beyond with
  | true =>
    show splitBeyond (number ++ ['+']) = _
    rw [splitBeyond, List.getLast?_concat, if_pos rfl, List.dropLast_concat]
  | false =>
    obtain ⟨c, last, digit⟩ := amount.getLast_digit
    have bare : number ++ mark false = number := List.append_nil _
    rw [bare, splitBeyond, last, if_neg]
    rintro ⟨⟩
    exact absurd digit (by decide)

theorem slash_not_mem {rate : Nat} {number : List Char} (amount : IsNumber rate number) (beyond : Bool) :
    '/' ∉ number ++ mark beyond := by
  rw [List.mem_append, not_or]
  exact ⟨amount.not_mem (by decide) (by decide), by cases beyond <;> decide⟩

theorem ofParts?_iff {head per : List Char} {unit : RateUnit} {l : RateLimit} :
    ofParts? head unit per = some l ↔ ∃ rate number period beyond,
      head = number ++ mark beyond ∧ IsNumber rate number ∧ 1 ≤ rate ∧ rate < 2 ^ 64 ∧
        String.ofList per ∈ period.texts ∧ l = ⟨UInt64.ofNat rate, unit, period, 0, beyond⟩ := by
  constructor
  · intro h
    unfold ofParts? at h
    cases cut : splitBeyond head with
    | mk number beyond =>
      rw [cut] at h
      dsimp only at h
      obtain ⟨rate, read, h⟩ := Option.bind_eq_some_iff.mp h
      obtain ⟨amount, small⟩ := number?_iff.mp read
      split at h
      · cases h
      · rename_i positive
        obtain ⟨period, span, h⟩ := Option.bind_eq_some_iff.mp h
        cases h
        exact ⟨rate, number, period, beyond, splitBeyond_inv cut, amount, Nat.one_le_iff_ne_zero.mpr positive,
          Nat.lt_succ_of_le small, Period.ofText?_iff.mp span, rfl⟩
  · rintro ⟨rate, number, period, beyond, rfl, amount, positive, small, span, rfl⟩
    have read : number? 0xFFFFFFFFFFFFFFFF number = some rate :=
      number?_iff.mpr ⟨amount, Nat.le_of_lt_succ small⟩
    rw [ofParts?, splitBeyond_mark amount]
    simp [read, Period.ofText?_iff.mpr span, Nat.one_le_iff_ne_zero.mp positive]

/-- A text is read exactly if it says a rate from 1 on that is less than the bound, and as that rate. -/
theorem parse?_iff {cs : List Char} {l : RateLimit} : parse? cs = some l ↔
    ∃ rate unit per beyond, Says rate per beyond unit (trim cs) ∧ 1 ≤ rate ∧ rate < 2 ^ 64 ∧
      l = ⟨UInt64.ofNat rate, unit, per, 0, beyond⟩ := by
  unfold parse?
  constructor
  · intro h
    split at h
    · rename_i head per parts
      obtain ⟨text, -, -⟩ := pieces_two parts
      obtain ⟨rate, number, period, beyond, rfl, amount, positive, small, span, rfl⟩ := ofParts?_iff.mp h
      exact ⟨rate, .packets, period, beyond, text ▸ .packets amount span, positive, small, rfl⟩
    · rename_i head letter per parts
      obtain ⟨text, -, -, -⟩ := pieces_three_iff.mp parts
      obtain ⟨unit, known, found⟩ := Option.bind_eq_some_iff.mp h
      obtain rfl := RateUnit.ofLetter?_iff.mp known
      obtain ⟨rate, number, period, beyond, rfl, amount, positive, small, span, rfl⟩ := ofParts?_iff.mp found
      exact ⟨rate, unit, period, beyond, text ▸ .counted unit amount span, positive, small, rfl⟩
    · cases h
  · rintro ⟨rate, unit, per, beyond, text, positive, small, rfl⟩
    generalize trim cs = cs at text
    cases text with
    | packets amount span =>
      rw [pieces_two_iff.mpr ⟨rfl, slash_not_mem amount beyond, Period.slash_not_mem span⟩]
      exact ofParts?_iff.mpr ⟨rate, _, per, beyond, rfl, amount, positive, small, span, rfl⟩
    | counted unit amount span =>
      have whole : '/' ∉ unit.text.toList := by cases unit <;> decide
      rw [pieces_three_iff.mpr ⟨rfl, slash_not_mem amount beyond, whole, Period.slash_not_mem span⟩]
      dsimp only
      rw [RateUnit.ofLetter?_iff.mpr rfl]
      exact ofParts?_iff.mpr ⟨rate, _, per, beyond, rfl, amount, positive, small, span, rfl⟩

/-- The text of a limit says its rate. -/
theorem chars_says (l : RateLimit) : Says l.rate.toNat l.per l.beyond l.unit l.chars := by
  have amount : IsNumber l.rate.toNat (decimal l.rate.toNat) :=
    (number?_iff.mp (number?_decimal (Nat.le_refl _))).1
  have span : String.ofList [l.per.letter] ∈ l.per.texts := by cases l.per <;> decide
  have text : l.chars = decimal l.rate.toNat ++ mark l.beyond ++
      '/' :: (l.unit.text.toList ++ '/' :: [l.per.letter]) := by
    rw [chars, mark]
    cases l.unit <;> rfl
  rw [text]
  exact .counted l.unit amount span

theorem trim_chars (l : RateLimit) : trim l.chars = l.chars := by
  refine trim_eq_self fun c hc => ?_
  rw [chars, List.mem_append, List.mem_append] at hc
  rcases hc with (digit | plus) | rest
  · exact digit_blank _ c digit
  · cases beyond : l.beyond with
    | true =>
      rw [beyond] at plus
      cases List.mem_singleton.mp plus
      decide
    | false =>
      rw [beyond] at plus
      cases plus
  · have each : ∀ (u : RateUnit) (p : Period), ['/', u.letter, '/', p.letter].all (!isBlank ·) = true := by
      intro u p
      cases u <;> cases p <;> decide
    simpa using List.all_eq_true.mp (each l.unit l.per) c rest

/-- Every limit is read back from its text, but for its burst. -/
theorem parse?_chars {l : RateLimit} (positive : 1 ≤ l.rate) : parse? l.chars = some { l with burst := 0 } := by
  refine parse?_iff.mpr ⟨l.rate.toNat, l.unit, l.per, l.beyond, ?_, ?_, l.rate.toNat_lt, ?_⟩
  · rw [trim_chars]
    exact l.chars_says
  · exact UInt64.le_iff_toNat_le.mp positive
  · rw [UInt64.ofNat_toNat]

/-- A text is read as a limit exactly if, without the blanks around it, it says a rate from 1 on that fits
64 bits, and as that rate with burst zero; any other text is refused. Every limit whose rate is not zero is
read back from its own text, with whatever burst is given beside it. -/
theorem texts_exact :
    (∀ (text : String) (l : RateLimit), parse? text.toList = some l ↔
      ∃ rate unit per beyond, Says rate per beyond unit (trim text.toList) ∧ 1 ≤ rate ∧ rate < 2 ^ 64 ∧
        l = ⟨UInt64.ofNat rate, unit, per, 0, beyond⟩) ∧
    (∀ (text : String) (burst : UInt32), (∀ l, parse? text.toList ≠ some l) →
      parse text burst = .error (.rateLimitMalformed text)) ∧
    ∀ l : RateLimit, 1 ≤ l.rate → parse? l.text.toList = some { l with burst := 0 } ∧
      ∀ burst, parse l.text burst = .ok { l with burst } := by
  refine ⟨fun text l => parse?_iff, fun text burst refused => ?_, fun l positive => ?_⟩
  · rw [parse, Option.eq_none_iff_forall_ne_some.mpr refused]
  · have read : parse? l.text.toList = some { l with burst := 0 } := by
      rw [text, String.toList_ofList]
      exact parse?_chars positive
    refine ⟨read, fun burst => ?_⟩
    rw [parse, read]

def overflowing : RateLimit := ⟨200, .bytes, .second, 100, true⟩

theorem texts_exact_overflowing :
    (∃ l, parse? " +007+/week\n".toList = some l ∧ l.rate = 7 ∧ l.beyond = true) ∧
    parse "+/s" 5 = .error (.rateLimitMalformed "+/s") ∧
    1 ≤ overflowing.rate ∧ overflowing.text = "200+/b/s" ∧ parse overflowing.text 100 = .ok overflowing := by
  obtain ⟨exact, refuses, back⟩ := texts_exact
  have amount : IsNumber 7 "+007".toList := .signed (by decide) (List.all_eq_true.mp (by decide)) (by decide)
  have span : String.ofList "week".toList ∈ Period.week.texts := by decide
  have week : Says 7 .week true .packets (trim " +007+/week\n".toList) := .packets amount span
  have refused : parse? "+/s".toList = none := by decide
  refine ⟨⟨_, (exact _ _).mpr ⟨7, _, _, _, week, by decide, by decide, rfl⟩, rfl, rfl⟩, ?_, by decide, ?_, ?_⟩
  · exact refuses "+/s" 5 (Option.eq_none_iff_forall_ne_some.mp refused)
  · decide +kernel
  · exact (back overflowing (by decide)).2 100

end RateLimit

end Firewall
