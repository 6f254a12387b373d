import Firewall.Json.Number

namespace Firewall.Json

inductive Token where
  | leftBracket
  | rightBracket
  | leftBrace
  | rightBrace
  | comma
  | colon
  | null
  | bool (value : Bool)
  | number (value : Option Number)
  | string (value : Option String)
  deriving DecidableEq, Repr

def isSpace (c : Char) : Bool :=
  c == ' ' || c == '\n' || c == '\t' || c == '\r'

/-- What stands for one or half a character between the quotes: the character itself or four
hexadecimal digits that name a UTF-16 unit. -/
inductive Piece where
  | char (c : Char)
  | unit (u : Nat)
  deriving DecidableEq, Repr

/-- The character that a letter behind a backslash stands for. -/
def escaped? (c : Char) : Option Char :=
  if c = '"' ∨ c = '\\' ∨ c = '/' then some c
  else if c = 'b' then some (Char.ofNat 8)
  else if c = 'f' then some (Char.ofNat 12)
  else if c = 'n' then some '\n'
  else if c = 'r' then some '\r'
  else if c = 't' then some '\t'
  else none

/-- The pieces up to the closing quote, and what follows it. -/
def takePieces? : List Char → Option (List Piece × List Char)
  | [] => none
  | '\\' :: 'u' :: a :: b :: c :: d :: cs =>
    match Text.digits? Text.hexDigit? 16 [a, b, c, d] with
    | some u => (takePieces? cs).map fun (ps, rest) => (.unit u :: ps, rest)
    | none => none
  | '\\' :: e :: cs =>
    match escaped? e with
    | some c => (takePieces? cs).map fun (ps, rest) => (.char c :: ps, rest)
    | none => none
  | c :: cs =>
    if c = '"' then some ([], cs)
    else if c.toNat < 0x20 ∨ c = '\\' then none
    else (takePieces? cs).map fun (ps, rest) => (.char c :: ps, rest)

/-- The closing quote is taken. -/
theorem takePieces?_length {cs rest : List Char} {ps : List Piece}
    (h : takePieces? cs = some (ps, rest)) : rest.length < cs.length := by
  fun_induction takePieces? cs generalizing ps with
  | case1 => contradiction
  | case2 a b c d cs u hu ih =>
    obtain ⟨⟨ps', rest'⟩, hs, he⟩ := Option.map_eq_some_iff.mp h
    simp only [Prod.mk.injEq] at he
    have := ih (he.2 ▸ hs)
    simp only [List.length_cons]
    omega
  | case3 => contradiction
  | case4 e cs hne c hc ih =>
    obtain ⟨⟨ps', rest'⟩, hs, he⟩ := Option.map_eq_some_iff.mp h
    simp only [Prod.mk.injEq] at he
    have := ih (he.2 ▸ hs)
    simp only [List.length_cons]
    omega
  | case5 => contradiction
  | case6 =>
    simp only [Option.some.injEq, Prod.mk.injEq] at h
    simp [h.2]
  | case7 => contradiction
  | case8 c cs _ _ _ _ ih =>
    obtain ⟨⟨ps', rest'⟩, hs, he⟩ := Option.map_eq_some_iff.mp h
    simp only [Prod.mk.injEq] at he
    have := ih (he.2 ▸ hs)
    simp only [List.length_cons]
    omega

/-- The text of pieces; units beyond 16 bits come as two surrogates. -/
def joinPieces? : List Piece → Option (List Char)
  | [] => some []
  | .char c :: ps => (joinPieces? ps).map (c :: ·)
  | .unit u :: ps =>
    if 0xDC00 ≤ u ∧ u ≤ 0xDFFF then none
    else if 0xD800 ≤ u ∧ u ≤ 0xDBFF then
      match ps with
      | .unit v :: ps =>
        if 0xDC00 ≤ v ∧ v ≤ 0xDFFF then
          (joinPieces? ps).map
            (Char.ofNat (0x10000 + (u - 0xD800) * 0x400 + (v - 0xDC00)) :: ·)
        else none
      | _ => none
    else (joinPieces? ps).map (Char.ofNat u :: ·)

/-- The token that starts with a character, and what follows it. -/
def scanToken? : List Char → Option (Token × List Char)
  | '[' :: cs => some (.leftBracket, cs)
  | ']' :: cs => some (.rightBracket, cs)
  | '\x7b' :: cs => some (.leftBrace, cs)
  | '\x7d' :: cs => some (.rightBrace, cs)
  | ',' :: cs => some (.comma, cs)
  | ':' :: cs => some (.colon, cs)
  | 'n' :: 'u' :: 'l' :: 'l' :: cs => some (.null, cs)
  | 't' :: 'r' :: 'u' :: 'e' :: cs => some (.bool true, cs)
  | 'f' :: 'a' :: 'l' :: 's' :: 'e' :: cs => some (.bool false, cs)
  | '"' :: cs =>
    (takePieces? cs).map fun (ps, rest) => (.string ((joinPieces? ps).map String.ofList), rest)
  | cs => (Numeral.scan? cs).map fun (n, rest) => (.number n.value?, rest)

/-- A token takes at least one character, so reading the tokens of a text ends. -/
theorem scanToken?_length {cs rest : List Char} {t : Token}
    (h : scanToken? cs = some (t, rest)) : rest.length < cs.length := by
  unfold scanToken? at h
  split at h
  case h_10 =>
    obtain ⟨⟨ps, rest'⟩, hs, he⟩ := Option.map_eq_some_iff.mp h
    have := takePieces?_length hs
    simp only [Prod.mk.injEq] at he
    simp only [← he.2, List.length_cons]
    omega
  case h_11 =>
    obtain ⟨⟨n, rest'⟩, hs, he⟩ := Option.map_eq_some_iff.mp h
    have := Numeral.scan?_length hs
    simp only [Prod.mk.injEq] at he
    simp only [← he.2]
    omega
  all_goals
    simp only [Option.some.injEq, Prod.mk.injEq] at h
    simp only [h.2, List.length_cons]
    omega

/-- The tokens of a text behind those found so far, which are in reverse order. -/
def tokensFrom (found : List Token) : List Char → Option (List Token)
  | [] => some found.reverse
  | c :: cs =>
    if isSpace c then tokensFrom found cs
    else match _h : scanToken? (c :: cs) with
      | some (t, rest) => tokensFrom (t :: found) rest
      | none => none
termination_by cs => cs.length
decreasing_by
  · simp
  · exact scanToken?_length ‹_›

def tokens? (cs : List Char) : Option (List Token) := tokensFrom [] cs

end Firewall.Json
