import Firewall.Address.Basic
import Firewall.Text.Numeral

namespace Firewall.Address

/-- One decimal number of an IPv4 address: at most three digits, no leading zero, below 256. -/
def octet? (cs : List Char) : Option Nat :=
  match cs with
  | '0' :: _ :: _ => none
  | _ => if cs.length ≤ 3 then (Text.digits? Text.decimalDigit? 10 cs).filter (· < 256) else none

def ofOctets (a b c d : Nat) : BitVec 32 :=
  BitVec.ofNat 32 (((a * 256 + b) * 256 + c) * 256 + d)

def dotted? (cs : List Char) : Option (BitVec 32) :=
  match (Text.pieces (· == '.') cs).map octet? with
  | [some a, some b, some c, some d] => some (ofOctets a b c d)
  | _ => none

/-- One hexadecimal group of an IPv6 address: one to four digits. -/
def group? (cs : List Char) : Option Nat :=
  if cs.length ≤ 4 then Text.digits? Text.hexDigit? 16 cs else none

/-- The groups that the pieces between colons spell; the last piece may be an IPv4 address, which
counts as two groups. -/
def groups? : List (List Char) → Option (List Nat)
  | [] => some []
  | [w] =>
    match group? w with
    | some g => some [g]
    | none => (dotted? w).map fun b => [b.toNat / 65536, b.toNat % 65536]
  | w :: ws =>
    match group? w with
    | some g => (groups? ws).map (g :: ·)
    | none => none

/-- The groups of a text between colons; an empty text has none. -/
def groupsOf? (cs : List Char) : Option (List Nat) :=
  if cs.isEmpty then some [] else groups? (Text.pieces (· == ':') cs)

/-- The text before the first two colons in a row and the text after them. -/
def splitAtGap : List Char → Option (List Char × List Char)
  | ':' :: ':' :: cs => some ([], cs)
  | c :: cs => (splitAtGap cs).map fun (a, b) => (c :: a, b)
  | [] => none

def ofGroups (gs : List Nat) : BitVec 128 :=
  BitVec.ofNat 128 (gs.foldl (fun acc g => acc * 65536 + g) 0)

/-- An IPv6 address. Two colons stand for at least one group; before them every group is
hexadecimal. -/
def colons? (cs : List Char) : Option (BitVec 128) :=
  match splitAtGap cs with
  | none =>
    match groupsOf? cs with
    | some gs => if gs.length = 8 then some (ofGroups gs) else none
    | none => none
  | some (front, back) =>
    match groupsOf? front, groupsOf? back with
    | some fs, some bs =>
      if fs.length + bs.length ≤ 7 ∧ !front.contains '.' then
        some (ofGroups (fs ++ List.replicate (8 - fs.length - bs.length) 0 ++ bs))
      else none
    | _, _ => none

def parse? (cs : List Char) : Option Address :=
  match dotted? cs with
  | some b => some (.v4 b)
  | none => (colons? cs).map .v6

def dotted (b : BitVec 32) : List Char :=
  let n := b.toNat
  Text.decimal (n / 0x1000000) ++ '.' :: (Text.decimal (n / 0x10000 % 256) ++
    '.' :: (Text.decimal (n / 0x100 % 256) ++ '.' :: Text.decimal (n % 256)))

def groups (b : BitVec 128) : List Nat :=
  (List.range 8).map fun i => (b.toNat >>> (16 * (7 - i))) % 65536

def leadingZeros : List Nat → Nat
  | 0 :: gs => leadingZeros gs + 1
  | _ => 0

/-- Position and length of the longest run of zeros from position `at` on, the first of equal
ones. -/
def longestRun (pos : Nat) : List Nat → Nat × Nat
  | [] => (pos, 0)
  | g :: gs =>
    let here := leadingZeros (g :: gs)
    let later := longestRun (pos + 1) gs
    if later.2 ≤ here then (pos, here) else later

def joinGroups (gs : List Nat) : List Char :=
  (gs.map Text.hex).intersperse [':'] |>.flatten

def colons (b : BitVec 128) : List Char :=
  if isMapped b then ':' :: ':' :: 'f' :: 'f' :: 'f' :: 'f' :: ':' :: dotted (b.setWidth 32)
  else
    let gs := groups b
    let (start, count) := longestRun 0 gs
    if 2 ≤ count then
      joinGroups (gs.take start) ++ ':' :: ':' :: joinGroups (gs.drop (start + count))
    else joinGroups gs

def chars : Address → List Char
  | .v4 b => dotted b
  | .v6 b => colons b

def text (a : Address) : String := String.ofList a.chars

end Firewall.Address

namespace Firewall.Network

/-- The length that a dotted mask stands for, if its ones come first. -/
def maskLength? (b : BitVec 32) : Option Nat :=
  (List.range 33).find? fun n => prefixMask 32 n == b

/-- The network length behind the slash of an IPv4 network: a number or a dotted mask. -/
def length4? (cs : List Char) : Option Nat :=
  match Address.dotted? cs with
  | some m => maskLength? m
  | none => Text.number? 32 cs

/-- A network: an address alone, or with a slash and a length. -/
def parse? (cs : List Char) : Option Network :=
  match Text.pieces (· == '/') cs with
  | [a] => (Address.parse? a).map host
  | [a, n] =>
    match Address.parse? a with
    | some (.v4 b) => (length4? n).bind (mk? (.v4 b))
    | some (.v6 b) => (Text.number? 128 n).bind (mk? (.v6 b))
    | none => none
  | _ => none

def chars (n : Network) : List Char :=
  n.address.chars ++ '/' :: Text.decimal n.length

def text (n : Network) : String := String.ofList n.chars

end Firewall.Network
