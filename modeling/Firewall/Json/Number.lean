import Firewall.Decimal.Shortest
import Firewall.Text.Numeral

namespace Firewall.Json

/-- The value of a number: an integer of 64 bits, signed or not, or the bits of a double. -/
inductive Number where
  | int (value : Int)
  | real (bits : UInt64)
  deriving DecidableEq, Repr

/-- A numeral as written: sign, digits, fraction digits, exponent sign and digits. -/
structure Numeral where
  negative : Bool
  whole : List Nat
  fraction : Option (List Nat)
  exponent : Option (Bool × List Nat)
  deriving DecidableEq, Repr

/-- The digits at the start of a text and what follows them. -/
def takeDigits (cs : List Char) : List Nat × List Char :=
  ((cs.takeWhile Char.isDigit).map fun c => c.toNat - 48, cs.dropWhile Char.isDigit)

def takeSomeDigits? (cs : List Char) : Option (List Nat × List Char) :=
  match takeDigits cs with
  | ([], _) => none
  | found => some found

/-- The digits before the point: a zero, or digits that do not start with zero. -/
def takeWhole? : List Char → Option (List Nat × List Char)
  | '0' :: cs => some ([0], cs)
  | cs => takeSomeDigits? cs

def takeFraction? : List Char → Option (Option (List Nat) × List Char)
  | '.' :: cs => (takeSomeDigits? cs).map fun (ds, rest) => (some ds, rest)
  | cs => some (none, cs)

/-- The digits of an exponent behind its sign. -/
def takeSigned? : List Char → Option ((Bool × List Nat) × List Char)
  | '-' :: cs => (takeSomeDigits? cs).map fun (ds, rest) => ((true, ds), rest)
  | '+' :: cs => (takeSomeDigits? cs).map fun (ds, rest) => ((false, ds), rest)
  | cs => (takeSomeDigits? cs).map fun (ds, rest) => ((false, ds), rest)

/-- The exponent, if a letter E follows. -/
def takeExponent? : List Char → Option (Option (Bool × List Nat) × List Char)
  | c :: cs =>
    if c = 'e' ∨ c = 'E' then (takeSigned? cs).map fun (e, rest) => (some e, rest)
    else some (none, c :: cs)
  | [] => some (none, [])

def takeMinus : List Char → Bool × List Char
  | '-' :: cs => (true, cs)
  | cs => (false, cs)

/-- The numeral at the start of a text and what follows it. -/
def Numeral.scan? (cs : List Char) : Option (Numeral × List Char) := do
  let (negative, cs) := takeMinus cs
  let (whole, cs) ← takeWhole? cs
  let (fraction, cs) ← takeFraction? cs
  let (exponent, cs) ← takeExponent? cs
  return (⟨negative, whole, fraction, exponent⟩, cs)

/-- At least one digit is taken. -/
theorem takeSomeDigits?_length {cs rest : List Char} {ds : List Nat}
    (h : takeSomeDigits? cs = some (ds, rest)) : rest.length < cs.length := by
  have split : (cs.takeWhile Char.isDigit).length + (cs.dropWhile Char.isDigit).length
      = cs.length := by
    rw [← List.length_append, List.takeWhile_append_dropWhile]
  unfold takeSomeDigits? takeDigits at h
  cases hd : cs.takeWhile Char.isDigit with
  | nil => simp [hd] at h
  | cons d more =>
    simp only [hd, List.map_cons, Option.some.injEq, Prod.mk.injEq] at h
    simp only [hd, List.length_cons, h.2] at split
    omega

/-- The digits before the point take at least one character. -/
theorem takeWhole?_length {cs rest : List Char} {ds : List Nat}
    (h : takeWhole? cs = some (ds, rest)) : rest.length < cs.length := by
  unfold takeWhole? at h
  split at h
  · simp only [Option.some.injEq, Prod.mk.injEq] at h
    simp [h.2]
  · exact takeSomeDigits?_length h

/-- What follows a fraction is no longer than the text. -/
theorem takeFraction?_length {cs rest : List Char} {ds : Option (List Nat)}
    (h : takeFraction? cs = some (ds, rest)) : rest.length ≤ cs.length := by
  unfold takeFraction? at h
  split at h
  · obtain ⟨⟨ds', rest'⟩, hs, he⟩ := Option.map_eq_some_iff.mp h
    have := takeSomeDigits?_length hs
    simp only [Prod.mk.injEq] at he
    simp only [List.length_cons, ← he.2]
    omega
  · simp only [Option.some.injEq, Prod.mk.injEq] at h
    simp [h.2]

/-- A signed numeral takes at least one character. -/
theorem takeSigned?_length {cs rest : List Char} {e : Bool × List Nat}
    (h : takeSigned? cs = some (e, rest)) : rest.length < cs.length := by
  unfold takeSigned? at h
  split at h <;>
  · obtain ⟨⟨ds', rest'⟩, hs, he⟩ := Option.map_eq_some_iff.mp h
    have := takeSomeDigits?_length hs
    simp only [Prod.mk.injEq] at he
    simp only [← he.2, List.length_cons]
    omega

/-- What follows an exponent is no longer than the text. -/
theorem takeExponent?_length {cs rest : List Char} {e : Option (Bool × List Nat)}
    (h : takeExponent? cs = some (e, rest)) : rest.length ≤ cs.length := by
  unfold takeExponent? at h
  split at h
  · split at h
    · obtain ⟨⟨ds', rest'⟩, hs, he⟩ := Option.map_eq_some_iff.mp h
      have := takeSigned?_length hs
      simp only [Prod.mk.injEq] at he
      simp only [← he.2, List.length_cons]
      omega
    · simp only [Option.some.injEq, Prod.mk.injEq] at h
      simp [← h.2]
  · simp only [Option.some.injEq, Prod.mk.injEq] at h
    simp [← h.2]

/-- What follows a sign is no longer than the text. -/
theorem takeMinus_length (cs : List Char) : (takeMinus cs).2.length ≤ cs.length := by
  unfold takeMinus
  split <;> simp

/-- A numeral takes at least one character. -/
theorem Numeral.scan?_length {cs rest : List Char} {n : Numeral}
    (h : Numeral.scan? cs = some (n, rest)) : rest.length < cs.length := by
  have := takeMinus_length cs
  unfold Numeral.scan? at h
  simp only [Option.bind_eq_bind, Option.bind_eq_some_iff, Option.pure_def, Option.some.injEq,
    Prod.mk.injEq] at h
  obtain ⟨⟨whole, cs₁⟩, hw, ⟨fraction, cs₂⟩, hf, ⟨exponent, cs₃⟩, he, -, hr⟩ := h
  have := takeWhole?_length hw
  have := takeFraction?_length hf
  have := takeExponent?_length he
  simp only at *
  subst hr
  omega

/-- Appends digits to a significand as long as it stays below 2 ^ 64, and returns those left. -/
def fillSignificand (significand : Nat) : List Nat → Nat × List Nat
  | [] => (significand, [])
  | d :: ds =>
    if significand * 10 + d ≤ 0xFFFFFFFFFFFFFFFF then fillSignificand (significand * 10 + d) ds
    else (significand, d :: ds)

def powerOfTen (n : Nat) : Float :=
  Float.ofScientific 1 false n

/-- Divides by ten to the `n`, in steps of at most 308. -/
def divideByPower (f : Float) (n : Nat) : Float :=
  if n ≤ 308 then f / powerOfTen n
  else if f == 0 then f
  else divideByPower (f / powerOfTen 308) (n - 308)
termination_by n
decreasing_by omega

/-- `significand * 10 ^ exponent` as a double, `none` if it is too large. The significand is rounded
first and the product once more. -/
def realOfParts (negative : Bool) (significand : Nat) (exponent : Int) : Option Number :=
  let f := (UInt64.ofNat significand).toFloat
  let magnitude :=
    if exponent < 0 then some (divideByPower f (-exponent).toNat)
    else if exponent ≤ 308 then
      let g := f * powerOfTen exponent.toNat
      if g.isInf then none else some g
    else if f == 0 then some f
    else none
  magnitude.map fun g => .real (if negative then -g else g).toBits

/-- The least and greatest exponents that are told apart. -/
def clampExponent (e : Int) : Int :=
  max (-0x80000000) (min 0x7FFFFFFF e)

/-- The value of a numeral with exponent digits `ds` behind a significand scaled by ten to the
`start`. From 2 ^ 31 on, an exponent is beyond all bounds. -/
def realWithExponent (negative : Bool) (significand : Nat) (start : Int) (down : Bool)
    (ds : List Nat) : Option Number :=
  let e : Nat := ds.foldl (fun acc d => acc * 10 + d) 0
  if e < 0x80000000 then
    realOfParts negative significand (clampExponent (if down then start - e else start + e))
  else if significand ≠ 0 ∧ !down then none
  else realOfParts negative 0 0

/-- The value of a numeral; `none` if it is too large for a double. An integer outside 64 bits, and
minus zero, is a double. -/
def Numeral.value? (n : Numeral) : Option Number :=
  let (significand, left) := fillSignificand 0 n.whole
  let start : Int := left.length
  match n.fraction, n.exponent with
  | none, none =>
    if left ≠ [] then realOfParts n.negative significand start
    else if !n.negative then some (.int significand)
    else if 0 < significand ∧ significand ≤ 0x8000000000000000 then some (.int (-significand))
    else realOfParts true significand 0
  | none, some (down, ds) => realWithExponent n.negative significand start down ds
  | some fs, exponent =>
    let (significand, skipped) := fillSignificand significand fs
    let start := start - (fs.length - skipped.length : Nat)
    match exponent with
    | none => realOfParts n.negative significand start
    | some (down, ds) => realWithExponent n.negative significand start down ds

def integerText : Int → List Char
  | .ofNat n => Text.decimal n
  | .negSucc n => '-' :: Text.decimal (n + 1)

def exponentText : Int → List Char
  | .ofNat n => '+' :: Text.decimal n
  | .negSucc n => '-' :: Text.decimal (n + 1)

/-- The text of a positive decimal: positional from 1e-5 up to 1e16, always with a point, and with
an exponent beyond. -/
def scientificText (s : Decimal.Scientific) : List Char :=
  let digits := Text.decimal s.digits
  let point : Int := digits.length + s.exponent
  if 0 ≤ s.exponent ∧ point ≤ 16 then
    digits ++ List.replicate s.exponent.toNat '0' ++ ['.', '0']
  else if 0 < point ∧ point ≤ 16 then
    digits.take point.toNat ++ '.' :: digits.drop point.toNat
  else if -5 < point ∧ point ≤ 0 then
    '0' :: '.' :: List.replicate (-point).toNat '0' ++ digits
  else match digits with
    | [d] => d :: 'e' :: exponentText (point - 1)
    | d :: ds => d :: '.' :: ds ++ 'e' :: exponentText (point - 1)
    | [] => []

/-- The text of a finite double: the fewest digits that read back. -/
def realText (bits : UInt64) : List Char :=
  let sign := if bits.toNat >>> 63 = 1 then ['-'] else []
  let magnitude := UInt64.ofNat (bits.toNat % 0x8000000000000000)
  sign ++ if magnitude = 0 then ['0', '.', '0'] else scientificText (Decimal.shortestOfBits magnitude)

def Number.text : Number → List Char
  | .int i => integerText i
  | .real bits => realText bits

end Firewall.Json
