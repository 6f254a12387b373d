namespace Firewall.Utf8

/-- The character that stands for bytes that are none. -/
def replacement : Char := Char.ofNat 0xFFFD

/-- The number of bytes that follow a first byte, and the bounds of the second. -/
def following? (b : Nat) : Option (Nat × Nat × Nat) :=
  if 0xC2 ≤ b ∧ b ≤ 0xDF then some (1, 0x80, 0xBF)
  else if b = 0xE0 then some (2, 0xA0, 0xBF)
  else if b = 0xED then some (2, 0x80, 0x9F)
  else if 0xE1 ≤ b ∧ b ≤ 0xEF then some (2, 0x80, 0xBF)
  else if b = 0xF0 then some (3, 0x90, 0xBF)
  else if b = 0xF4 then some (3, 0x80, 0x8F)
  else if 0xF1 ≤ b ∧ b ≤ 0xF3 then some (3, 0x80, 0xBF)
  else none

/-- Reads `count` further bytes of a character with the value `acc` so far; the next byte is between
`low` and `high`. Returns the character and what follows it. -/
def continueChar (acc low high : Nat) : Nat → List UInt8 → Char × List UInt8
  | 0, bs => (Char.ofNat acc, bs)
  | _ + 1, [] => (replacement, [])
  | count + 1, b :: bs =>
    if low ≤ b.toNat ∧ b.toNat ≤ high then
      continueChar (acc * 64 + b.toNat % 64) 0x80 0xBF count bs
    else (replacement, b :: bs)

/-- The bits of a first byte that belong to the character, when `count` bytes follow. -/
def leadBits (b count : Nat) : Nat := b % (1 <<< (6 - count))

/-- The character that starts with a byte, and what follows it. -/
def nextChar (b : UInt8) (bs : List UInt8) : Char × List UInt8 :=
  if b.toNat < 0x80 then (Char.ofNat b.toNat, bs)
  else
    match following? b.toNat with
    | some (count, low, high) => continueChar (leadBits b.toNat count) low high count bs
    | none => (replacement, bs)

theorem continueChar_length (acc low high count : Nat) (bs : List UInt8) :
    (continueChar acc low high count bs).2.length ≤ bs.length := by
  induction count generalizing acc low high bs with
  | zero => simp [continueChar]
  | succ count ih =>
    cases bs with
    | nil => simp [continueChar]
    | cons b bs =>
      unfold continueChar
      split
      · exact Nat.le_succ_of_le (ih _ _ _ _)
      · exact Nat.le_refl _

theorem nextChar_length (b : UInt8) (bs : List UInt8) : (nextChar b bs).2.length ≤ bs.length := by
  unfold nextChar
  split
  · exact Nat.le_refl _
  · split
    · exact continueChar_length _ _ _ _ _
    · exact Nat.le_refl _

def decode : List UInt8 → List Char
  | [] => []
  | b :: bs => (nextChar b bs).1 :: decode (nextChar b bs).2
termination_by bs => bs.length
decreasing_by exact Nat.lt_succ_of_le (nextChar_length b bs)

end Firewall.Utf8
