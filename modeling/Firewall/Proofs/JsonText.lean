import Firewall.Proofs.JsonTokens

namespace Firewall.Json

mutual
/-- Every number of a value is read as it is written. -/
def NumbersReadBack : Json → Prop
  | .number n => n.ReadsBack
  | .array xs => ItemsReadBack xs
  | .object ms => MembersReadBack ms
  | .null => True
  | .bool _ => True
  | .string _ => True
termination_by structural j => j
def ItemsReadBack : List Json → Prop
  | [] => True
  | x :: xs => NumbersReadBack x ∧ ItemsReadBack xs
termination_by structural xs => xs
def MembersReadBack : List (String × Json) → Prop
  | [] => True
  | (_, v) :: ms => NumbersReadBack v ∧ MembersReadBack ms
termination_by structural ms => ms
end

mutual
def tokens : Json → List Token
  | .null => [.null]
  | .bool b => [.bool b]
  | .number n => [.number (some n)]
  | .string s => [.string (some s)]
  | .array [] => [.leftBracket, .rightBracket]
  | .array (x :: xs) => .leftBracket :: (tokens x ++ moreItems xs)
  | .object [] => [.leftBrace, .rightBrace]
  | .object ((k, v) :: ms) => .leftBrace :: .string (some k) :: .colon :: (tokens v ++ moreMembers ms)
termination_by structural j => j
def moreItems : List Json → List Token
  | [] => [.rightBracket]
  | x :: xs => .comma :: (tokens x ++ moreItems xs)
termination_by structural xs => xs
def moreMembers : List (String × Json) → List Token
  | [] => [.rightBrace]
  | (k, v) :: ms => .comma :: .string (some k) :: .colon :: (tokens v ++ moreMembers ms)
termination_by structural ms => ms
end

/-- A text consists of tokens, which are found in front of any text with which no number goes on. -/
def Lexes (cs : List Char) (ts : List Token) : Prop :=
  ∀ rest, EndsNumeral rest → tokens? (cs ++ rest) = (tokens? rest).map (ts ++ ·)

section Lexes

variable {cs ds : List Char} {ts us : List Token}

theorem Lexes.single {t : Token} (scanned : ∀ rest, EndsNumeral rest → scanToken? (cs ++ rest) = some (t, rest)) :
    Lexes cs [t] :=
  fun rest ends => tokens?_token (scanned rest ends)

/-- A token of which one sees where it ends. -/
theorem Lexes.cons {t : Token} (scanned : ∀ rest, scanToken? (cs ++ rest) = some (t, rest)) (lexes : Lexes ds us) :
    Lexes (cs ++ ds) (t :: us) := by
  intro rest ends
  rw [List.append_assoc, tokens?_token (scanned _), lexes rest ends]
  cases tokens? rest <;> rfl

/-- A token of one character. -/
theorem Lexes.sign {c : Char} {t : Token} (scanned : ∀ rest, scanToken? (c :: rest) = some (t, rest))
    (lexes : Lexes ds us) : Lexes (c :: ds) (t :: us) :=
  show Lexes ([c] ++ ds) (t :: us) from .cons scanned lexes

theorem Lexes.append (front : Lexes cs ts) (stops : ∃ c es, ds = c :: es ∧ isNumeralChar c = false)
    (back : Lexes ds us) : Lexes (cs ++ ds) (ts ++ us) := by
  intro rest ends
  obtain ⟨c, es, rfl, foreign⟩ := stops
  have stop : EndsNumeral (c :: es ++ rest) := by
    intro d first
    cases first
    exact foreign
  rw [List.append_assoc, front _ stop, back rest ends]
  cases tokens? rest with
  | none => rfl
  | some vs => exact congrArg some (List.append_assoc ts us vs).symm

theorem Lexes.space {c : Char} (space : isSpace c = true) (lexes : Lexes cs ts) : Lexes (c :: cs) ts := by
  intro rest ends
  rw [List.cons_append, tokens?_space space, lexes rest ends]

theorem Lexes.newline (level : Nat) (lexes : Lexes cs ts) : Lexes (newline level ++ cs) ts := by
  have blanks : ∀ n, Lexes (List.replicate n ' ' ++ cs) ts := by
    intro n
    induction n with
    | zero => exact lexes
    | succ n ih => exact .space rfl ih
  exact .space rfl (blanks _)

/-- A name, the colon behind it, and what follows. -/
theorem Lexes.name (k : String) (lexes : Lexes cs ts) :
    Lexes (quote k ++ ':' :: cs) (.string (some k) :: .colon :: ts) :=
  .cons (scanToken?_quote k) (.sign (fun _ => rfl) lexes)

/-- A line with an item, and what follows. -/
theorem Lexes.itemLine (level : Nat) (item : Lexes cs ts) (stops : ∃ c es, ds = c :: es ∧ isNumeralChar c = false)
    (back : Lexes ds us) : Lexes (Json.newline level ++ cs ++ ds) (ts ++ us) := by
  rw [List.append_assoc]
  exact .newline level (item.append stops back)

/-- A line with a member, and what follows. -/
theorem Lexes.memberLine (level : Nat) (k : String) (value : Lexes cs ts)
    (stops : ∃ c es, ds = c :: es ∧ isNumeralChar c = false) (back : Lexes ds us) :
    Lexes (Json.newline level ++ quote k ++ [':', ' '] ++ cs ++ ds) (.string (some k) :: .colon :: (ts ++ us)) := by
  have line : Json.newline level ++ quote k ++ [':', ' '] ++ cs ++ ds =
      Json.newline level ++ (quote k ++ ':' :: ' ' :: (cs ++ ds)) := by simp
  rw [line]
  exact .newline level (.name k (.space rfl (value.append stops back)))

end Lexes

theorem prettyItems_stops (level : Nat) (xs : List Json) :
    ∃ c es, prettyItems level xs = c :: es ∧ isNumeralChar c = false := by
  cases xs <;> exact ⟨_, _, rfl, rfl⟩

theorem prettyMembers_stops (level : Nat) (ms : List (String × Json)) :
    ∃ c es, prettyMembers level ms = c :: es ∧ isNumeralChar c = false := by
  cases ms <;> exact ⟨_, _, rfl, rfl⟩

mutual
/-- The text with a line for each item and member has the tokens of the value. -/
theorem lexes_pretty : (j : Json) → j.NumbersReadBack → ∀ level, Lexes (pretty level j) (tokens j)
  | .null, _, _ => .single fun _ _ => rfl
  | .bool true, _, _ => .single fun _ _ => rfl
  | .bool false, _, _ => .single fun _ _ => rfl
  | .number _, readBack, _ => .single fun _ ends => scanToken?_number readBack ends
  | .string s, _, _ => .single fun rest _ => scanToken?_quote s rest
  | .array [], _, _ => .sign (fun _ => rfl) (.single fun _ _ => rfl)
  | .array (x :: xs), readBack, level =>
    .sign (fun _ => rfl) (.itemLine (level + 1) (lexes_pretty x readBack.1 (level + 1))
      (prettyItems_stops level xs) (lexes_prettyItems xs readBack.2 level))
  | .object [], _, _ => .sign (fun _ => rfl) (.single fun _ _ => rfl)
  | .object ((k, v) :: ms), readBack, level =>
    .sign (fun _ => rfl) (.memberLine (level + 1) k (lexes_pretty v readBack.1 (level + 1))
      (prettyMembers_stops level ms) (lexes_prettyMembers ms readBack.2 level))
theorem lexes_prettyItems : (xs : List Json) → ItemsReadBack xs → ∀ level,
    Lexes (prettyItems level xs) (moreItems xs)
  | [], _, level => .newline level (.single fun _ _ => rfl)
  | x :: xs, readBack, level =>
    .sign (fun _ => rfl) (.itemLine (level + 1) (lexes_pretty x readBack.1 (level + 1))
      (prettyItems_stops level xs) (lexes_prettyItems xs readBack.2 level))
theorem lexes_prettyMembers : (ms : List (String × Json)) → MembersReadBack ms → ∀ level,
    Lexes (prettyMembers level ms) (moreMembers ms)
  | [], _, level => .newline level (.single fun _ _ => rfl)
  | (k, v) :: ms, readBack, level =>
    .sign (fun _ => rfl) (.memberLine (level + 1) k (lexes_pretty v readBack.1 (level + 1))
      (prettyMembers_stops level ms) (lexes_prettyMembers ms readBack.2 level))
end

theorem compactMoreItems_stops (xs : List Json) :
    ∃ c es, compactMoreItems xs = c :: es ∧ isNumeralChar c = false := by
  cases xs <;> exact ⟨_, _, rfl, rfl⟩

theorem compactMoreMembers_stops (ms : List (String × Json)) :
    ∃ c es, compactMoreMembers ms = c :: es ∧ isNumeralChar c = false := by
  cases ms <;> exact ⟨_, _, rfl, rfl⟩

mutual
/-- The text without blanks has the tokens of the value. -/
theorem lexes_compact : (j : Json) → j.NumbersReadBack → Lexes (compact j) (tokens j)
  | .null, _ => .single fun _ _ => rfl
  | .bool true, _ => .single fun _ _ => rfl
  | .bool false, _ => .single fun _ _ => rfl
  | .number _, readBack => .single fun _ ends => scanToken?_number readBack ends
  | .string s, _ => .single fun rest _ => scanToken?_quote s rest
  | .array [], _ => .sign (fun _ => rfl) (.single fun _ _ => rfl)
  | .array (x :: xs), readBack =>
    .sign (fun _ => rfl) ((lexes_compact x readBack.1).append (compactMoreItems_stops xs)
      (lexes_compactItems xs readBack.2))
  | .object [], _ => .sign (fun _ => rfl) (.single fun _ _ => rfl)
  | .object ((k, v) :: ms), readBack =>
    .sign (fun _ => rfl) (.name k ((lexes_compact v readBack.1).append (compactMoreMembers_stops ms)
      (lexes_compactMembers ms readBack.2)))
theorem lexes_compactItems : (xs : List Json) → ItemsReadBack xs → Lexes (compactMoreItems xs) (moreItems xs)
  | [], _ => .single fun _ _ => rfl
  | x :: xs, readBack =>
    .sign (fun _ => rfl) ((lexes_compact x readBack.1).append (compactMoreItems_stops xs)
      (lexes_compactItems xs readBack.2))
theorem lexes_compactMembers : (ms : List (String × Json)) → MembersReadBack ms →
    Lexes (compactMoreMembers ms) (moreMembers ms)
  | [], _ => .single fun _ _ => rfl
  | (k, v) :: ms, readBack =>
    .sign (fun _ => rfl) (.name k ((lexes_compact v readBack.1).append (compactMoreMembers_stops ms)
      (lexes_compactMembers ms readBack.2)))
end

/-- A value does not start with the end of an array. -/
theorem tokens_starts (j : Json) : ∃ t ts, tokens j = t :: ts ∧ t ≠ .rightBracket := by
  cases j with
  | null | bool | number | string => exact ⟨_, _, rfl, by simp⟩
  | array xs => cases xs <;> exact ⟨_, _, rfl, by simp⟩
  | object ms => cases ms <;> exact ⟨_, _, rfl, by simp⟩

namespace Tree

theorem State.run_cons (s : State) (t : Token) (ts : List Token) : s.run (t :: ts) = (s.step t).bind (·.run ts) := by
  rw [run]
  cases s.step t <;> rfl

/-- Where an array may end at once, a value is its first item. -/
theorem State.run_firstItem (stack : List Frame) (j : Json) (ts : List Token) :
    (State.firstItem stack).run (tokens j ++ ts) = (State.value (.array [] :: stack)).run (tokens j ++ ts) := by
  obtain ⟨t, us, starts, other⟩ := tokens_starts j
  have same : (State.firstItem stack).step t = (State.value (.array [] :: stack)).step t := by
    cases t with
    | rightBracket => exact absurd rfl other
    | _ => rfl
  rw [starts, List.cons_append, run_cons, run_cons, same]

mutual
/-- The tokens of a value give its tree. -/
theorem run_tokens : (j : Json) → ∀ (stack : List Frame) (ts : List Token),
    (State.value stack).run (tokens j ++ ts) = (State.complete (ofJson j) stack).run ts
  | .null, _, _ => rfl
  | .bool _, _, _ => rfl
  | .number _, _, _ => rfl
  | .string _, _, _ => rfl
  | .array [], _, _ => rfl
  | .array (x :: xs), stack, ts => by
    show (State.firstItem stack).run (tokens x ++ moreItems xs ++ ts) = _
    rw [List.append_assoc, State.run_firstItem, run_tokens x, run_moreItems xs]
    rfl
  | .object [], _, _ => rfl
  | .object ((k, v) :: ms), stack, ts => by
    show (State.value (.object [] (some k) :: stack)).run (tokens v ++ moreMembers ms ++ ts) = _
    rw [List.append_assoc, run_tokens v, run_moreMembers ms]
    rfl
theorem run_moreItems : (xs : List Json) → ∀ (x : Tree) (before : List Tree) (stack : List Frame) (ts : List Token),
    (State.complete x (.array before :: stack)).run (moreItems xs ++ ts) =
      (State.complete (.array (before.reverse ++ x :: ofItems xs)) stack).run ts
  | [], x, before, stack, ts => by
    show (State.complete (.array (x :: before).reverse) stack).run ts = _
    rw [List.reverse_cons]
    rfl
  | y :: ys, x, before, stack, ts => by
    show (State.value (.array (x :: before) :: stack)).run (tokens y ++ moreItems ys ++ ts) = _
    rw [List.append_assoc, run_tokens y, run_moreItems ys, List.reverse_cons, List.append_assoc]
    rfl
theorem run_moreMembers : (ms : List (String × Json)) → ∀ (k : Option String) (x : Tree)
    (before : List (Option String × Tree)) (stack : List Frame) (ts : List Token),
    (State.complete x (.object before k :: stack)).run (moreMembers ms ++ ts) =
      (State.complete (.object (before.reverse ++ (k, x) :: ofMembers ms)) stack).run ts
  | [], k, x, before, stack, ts => by
    show (State.complete (.object ((k, x) :: before).reverse) stack).run ts = _
    rw [List.reverse_cons]
    rfl
  | (l, y) :: ms, k, x, before, stack, ts => by
    show (State.value (.object ((k, x) :: before) (some l) :: stack)).run (tokens y ++ moreMembers ms ++ ts) = _
    rw [List.append_assoc, run_tokens y, run_moreMembers ms, List.reverse_cons, List.append_assoc]
    rfl
end

/-- A text is read if its tokens complete one value. -/
theorem parse?_iff {cs : List Char} {v : Tree} :
    parse? cs = some v ↔ ∃ ts, tokens? cs = some ts ∧ (State.value []).run ts = some (.complete v []) := by
  rw [parse?]
  constructor
  · intro read
    obtain ⟨ts, found, read⟩ := Option.bind_eq_some_iff.mp read
    obtain ⟨s, reached, done⟩ := Option.bind_eq_some_iff.mp read
    refine ⟨ts, found, ?_⟩
    rw [reached]
    split at done
    · cases done
      rfl
    · cases done
  · rintro ⟨ts, found, reached⟩
    rw [found, Option.bind_eq_bind, Option.bind_some, reached]
    rfl

/-- A text with the tokens of a value is read as the tree of the value. -/
theorem parse?_of_lexes {j : Json} {cs : List Char} (lexes : Lexes cs (tokens j)) : parse? cs = some (ofJson j) := by
  have found := lexes [] fun _ first => by cases first
  have reached := run_tokens j [] []
  rw [List.append_nil] at found reached
  rw [tokens?_nil, Option.map_some, List.append_nil] at found
  exact parse?_iff.mpr ⟨tokens j, found, reached⟩

theorem parse?_pretty {j : Json} (readBack : j.NumbersReadBack) : parse? j.prettyText.toList = some (ofJson j) := by
  rw [prettyText, String.toList_ofList]
  exact parse?_of_lexes (lexes_pretty j readBack 0)

theorem parse?_compact {j : Json} (readBack : j.NumbersReadBack) : parse? j.compact = some (ofJson j) :=
  parse?_of_lexes (lexes_compact j readBack)

end Tree
theorem decimal_noFeed (n : Nat) : '\n' ∉ Text.decimal n := Text.decimal_numerals.not_mem (by decide) n

theorem exponentText_noFeed (e : Int) : '\n' ∉ exponentText e := by
  cases e with
  | ofNat n | negSucc n => exact List.not_mem_cons_of_ne_of_not_mem (by decide) (decimal_noFeed _)

theorem scientificText_noFeed (s : Decimal.Scientific) : '\n' ∉ scientificText s := by
  have digits := decimal_noFeed s.digits
  have front : ∀ n, '\n' ∉ (Text.decimal s.digits).take n := fun n member => digits (List.mem_of_mem_take member)
  have back : ∀ n, '\n' ∉ (Text.decimal s.digits).drop n := fun n member => digits (List.mem_of_mem_drop member)
  unfold scientificText
  dsimp only
  split
  · simp [digits]
  split
  · simp [front, back]
  split
  · simp [digits]
  split
  · rename_i d single
    rw [single] at digits
    simp [exponentText_noFeed, List.ne_of_not_mem_cons digits]
  · rename_i d ds _ several
    rw [several] at digits
    simp [exponentText_noFeed, List.ne_of_not_mem_cons digits, List.not_mem_of_not_mem_cons digits]
  · simp

theorem Number.text_noFeed (n : Number) : '\n' ∉ n.text := by
  cases n with
  | int i =>
    cases i with
    | ofNat n => exact decimal_noFeed n
    | negSucc n => exact List.not_mem_cons_of_ne_of_not_mem (by decide) (decimal_noFeed _)
  | real bits =>
    show '\n' ∉ realText bits
    unfold realText
    dsimp only
    refine List.not_mem_append ?_ ?_
    · split <;> simp
    · split
      · simp
      · exact scientificText_noFeed _

theorem escapeChar_noFeed (c : Char) : '\n' ∉ escapeChar c := by
  by_cases quote : c = '"'
  · subst quote
    decide
  by_cases escape : c = '\\'
  · subst escape
    decide
  by_cases control : c.toNat < 0x20
  · have all : ∀ n < 0x20, '\n' ∉ escapeChar (Char.ofNat n) := by decide
    rw [← Char.ofNat_toNat c]
    exact all _ control
  · rw [escapeChar_self quote escape control, List.mem_singleton]
    rintro rfl
    exact control (by decide)

theorem quote_noFeed (s : String) : '\n' ∉ quote s := by
  simp [quote, escapeChar_noFeed]

mutual
/-- The text of a value without blanks is on one line. -/
theorem compact_noFeed : (j : Json) → '\n' ∉ compact j
  | .null => by decide
  | .bool true => by decide
  | .bool false => by decide
  | .number n => n.text_noFeed
  | .string s => quote_noFeed s
  | .array [] => by decide
  | .array (x :: xs) => by simp [compact, compactItems, compact_noFeed x, compactMoreItems_noFeed xs]
  | .object [] => by decide
  | .object ((k, v) :: ms) => by
    simp [compact, compactMembers, quote_noFeed, compact_noFeed v, compactMoreMembers_noFeed ms]
theorem compactMoreItems_noFeed : (xs : List Json) → '\n' ∉ compactMoreItems xs
  | [] => by decide
  | x :: xs => by simp [compactMoreItems, compact_noFeed x, compactMoreItems_noFeed xs]
theorem compactMoreMembers_noFeed : (ms : List (String × Json)) → '\n' ∉ compactMoreMembers ms
  | [] => by decide
  | (k, v) :: ms => by
    simp [compactMoreMembers, quote_noFeed, compact_noFeed v, compactMoreMembers_noFeed ms]
end

/-- An object ends with its brace. -/
theorem compact_object_ends (ms : List (String × Json)) : ∃ cs, compact (.object ms) = cs ++ ['\x7d'] := by
  have more : ∀ ms, ∃ cs, compactMoreMembers ms = cs ++ ['\x7d'] := by
    intro ms
    induction ms with
    | nil => exact ⟨[], rfl⟩
    | cons m ms ih =>
      obtain ⟨cs, ends⟩ := ih
      refine ⟨',' :: (quote m.1 ++ ':' :: (compact m.2 ++ cs)), ?_⟩
      rw [compactMoreMembers, ends]
      simp
  cases ms with
  | nil => exact ⟨['\x7b'], rfl⟩
  | cons m ms =>
    obtain ⟨cs, ends⟩ := more ms
    refine ⟨'\x7b' :: (quote m.1 ++ ':' :: (compact m.2 ++ cs)), ?_⟩
    rw [compact, compactMembers, ends]
    simp

end Firewall.Json
