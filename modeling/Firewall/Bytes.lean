namespace Firewall.Bytes

/-- The low `len` bytes of a number, most significant first. -/
def ofNat : Nat → Nat → List UInt8
  | 0, _ => []
  | len + 1, n => ofNat len (n / 256) ++ [UInt8.ofNat n]

/-- The number that bytes spell, most significant first. -/
def toNat (bs : List UInt8) : Nat :=
  bs.foldl (fun acc b => acc * 256 + b.toNat) 0

/-- The low `len` bytes of a number, least significant first. -/
def ofNatHost : Nat → Nat → List UInt8
  | 0, _ => []
  | len + 1, n => UInt8.ofNat n :: ofNatHost len (n / 256)

/-- The number that bytes spell, least significant first. -/
def toNatHost : List UInt8 → Nat
  | [] => 0
  | b :: bs => b.toNat + 256 * toNatHost bs

/-- Byte strings are ordered by their first difference; a proper beginning comes first. -/
def order : List UInt8 → List UInt8 → Ordering
  | [], [] => .eq
  | [], _ :: _ => .lt
  | _ :: _, [] => .gt
  | a :: as, b :: bs => if a < b then .lt else if b < a then .gt else order as bs

/-- Whether one byte string comes before another or is equal to it. -/
def le (as bs : List UInt8) : Bool :=
  order as bs != .gt

def ofText (cs : List Char) : List UInt8 :=
  cs.flatMap String.utf8EncodeChar

def ofString (s : String) : List UInt8 :=
  ofText s.toList

/-- The bytes cut or filled with zeros at the end to exactly `len` bytes. -/
def resize (len : Nat) (bs : List UInt8) : List UInt8 :=
  bs.take len ++ List.replicate (len - bs.length) 0

end Firewall.Bytes
