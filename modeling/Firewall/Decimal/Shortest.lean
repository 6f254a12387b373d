namespace Firewall.Decimal

/-- A decimal `digits * 10 ^ exponent`. -/
structure Scientific where
  digits : Nat
  exponent : Int
  deriving DecidableEq, Repr

structure Ratio where
  num : Nat
  den : Nat
  deriving DecidableEq, Repr

/-- `n * 2 ^ e` as a fraction. -/
def Ratio.scaled (n : Nat) (e : Int) : Ratio :=
  ⟨n * Nat.pow 2 e.toNat, Nat.pow 2 (-e).toNat⟩

def Ratio.compareDecimal (r : Ratio) (d : Nat) (u : Int) : Ordering :=
  compare (r.num * Nat.pow 10 (-u).toNat) (d * Nat.pow 10 u.toNat * r.den)

/-- The numbers that round to one binary number: an interval around it whose ends belong to it if
the mantissa is even. -/
structure RoundingInterval where
  low : Ratio
  value : Ratio
  high : Ratio
  closed : Bool
  deriving DecidableEq, Repr

/-- The rounding interval of `mantissa * 2 ^ exponent`; `narrow` says that the next number below is
half as far away as the next above. -/
def RoundingInterval.of (mantissa : Nat) (exponent : Int) (narrow : Bool) : RoundingInterval :=
  { low := .scaled (4 * mantissa - if narrow then 1 else 2) (exponent - 2)
    value := .scaled (4 * mantissa) (exponent - 2)
    high := .scaled (4 * mantissa + 2) (exponent - 2)
    closed := mantissa % 2 = 0 }

/-- Whether the decimal `d * 10 ^ u` lies in the interval. -/
def RoundingInterval.holds (i : RoundingInterval) (d : Nat) (u : Int) : Bool :=
  match i.low.compareDecimal d u, i.high.compareDecimal d u with
  | .lt, .gt => true
  | .eq, _ => i.closed
  | _, .eq => i.closed
  | _, _ => false

/-- The greatest `e` from -400 to 400 with `10 ^ e` at most the value. -/
def Ratio.magnitude (r : Ratio) : Int :=
  (((List.range 801).find? fun k => r.compareDecimal 1 (400 - Int.ofNat k) != .lt).map
    fun k => 400 - Int.ofNat k).getD 0

/-- The decimal of exponent `u` next to the value that lies in the interval; of two the nearer, of
two equally near the even one. -/
def RoundingInterval.onGrid? (i : RoundingInterval) (u : Int) : Option Nat :=
  let scaled := i.value.num * Nat.pow 10 (-u).toNat
  let unit := i.value.den * Nat.pow 10 u.toNat
  let below := scaled / unit
  let rest := scaled % unit
  match i.holds below u, i.holds (below + 1) u with
  | false, false => none
  | true, false => some below
  | false, true => some (below + 1)
  | true, true =>
    if 2 * rest < unit then some below
    else if unit < 2 * rest then some (below + 1)
    else if below % 2 = 0 then some below else some (below + 1)

/-- Moves the zeros at the end of the digits into the exponent. -/
def Scientific.stripped : Nat → Scientific → Scientific
  | 0, s => s
  | fuel + 1, s =>
    if s.digits ≠ 0 ∧ s.digits % 10 = 0 then
      Scientific.stripped fuel ⟨s.digits / 10, s.exponent + 1⟩
    else s

/-- The decimal of fewest digits in the interval, at most seventeen. -/
def RoundingInterval.shortest (i : RoundingInterval) : Scientific :=
  let top := i.value.magnitude
  let found := (List.range 17).findSome? fun n =>
    let u := top - Int.ofNat n
    (i.onGrid? u).map fun d => Scientific.mk d u
  (found.getD ⟨0, 0⟩).stripped 20

/-- The shortest decimal of the positive double with the given bits. -/
def shortestOfBits (bits : UInt64) : Scientific :=
  let fraction := bits.toNat % 0x10000000000000
  let biased := bits.toNat >>> 52 % 0x800
  if biased = 0 then (RoundingInterval.of fraction (-1074) false).shortest
  else (RoundingInterval.of (0x10000000000000 + fraction) (Int.ofNat biased - 1075)
    (fraction == 0 && biased != 1)).shortest

end Firewall.Decimal
