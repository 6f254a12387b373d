import Firewall.Text.Blank

namespace Firewall.Text

def decimalDigit? (c : Char) : Option Nat :=
  if '0' ≤ c && c ≤ '9' then some (c.toNat - 48) else none

def hexDigit? (c : Char) : Option Nat :=
  if '0' ≤ c && c ≤ '9' then some (c.toNat - 48)
  else if 'a' ≤ c && c ≤ 'f' then some (c.toNat - 87)
  else if 'A' ≤ c && c ≤ 'F' then some (c.toNat - 55)
  else none

/-- The number that the digits spell after the digits of `acc`; `none` at a character that is no
digit. -/
def digitsFrom (digit? : Char → Option Nat) (base : Nat) (acc : Nat) : List Char → Option Nat
  | [] => some acc
  | c :: cs =>
    match digit? c with
    | some d => digitsFrom digit? base (acc * base + d) cs
    | none => none

/-- The number spelled by one or more digits. -/
def digits? (digit? : Char → Option Nat) (base : Nat) : List Char → Option Nat
  | [] => none
  | c :: cs => digitsFrom digit? base 0 (c :: cs)

/-- One plus sign in front of a number says nothing. -/
def dropPlus : List Char → List Char
  | '+' :: cs => cs
  | cs => cs

/-- A decimal number from 0 to `max`; a plus sign and leading zeros are allowed. -/
def number? (max : Nat) (cs : List Char) : Option Nat :=
  (digits? decimalDigit? 10 (dropPlus cs)).filter (· ≤ max)

/-- A hexadecimal number from 0 to `max`; a plus sign and leading zeros are allowed. -/
def hexNumber? (max : Nat) (cs : List Char) : Option Nat :=
  (digits? hexDigit? 16 (dropPlus cs)).filter (· ≤ max)

def digitChar (d : Nat) : Char :=
  if d < 10 then Char.ofNat (48 + d) else Char.ofNat (87 + d)

def decimal (n : Nat) : List Char :=
  if n < 10 then [digitChar n] else decimal (n / 10) ++ [digitChar (n % 10)]
termination_by n
decreasing_by omega

def hex (n : Nat) : List Char :=
  if n < 16 then [digitChar n] else hex (n / 16) ++ [digitChar (n % 16)]
termination_by n
decreasing_by omega

/-- The numeral filled with zeros on the left to `width` digits. -/
def padded (width : Nat) (cs : List Char) : List Char :=
  List.replicate (width - cs.length) '0' ++ cs

/-- The hexadecimal text of bytes, two digits each. -/
def hexBytes (bs : List UInt8) : List Char :=
  bs.flatMap fun b => [digitChar (b.toNat / 16), digitChar (b.toNat % 16)]

end Firewall.Text
