import Firewall.Text.Numeral

namespace Firewall.Audit

structure Uuid where
  number : BitVec 128
  deriving DecidableEq, Repr

namespace Uuid

/-- The lengths of the groups of digits. -/
def groups : List Nat := [8, 4, 4, 4, 12]

/-- The digits of groups of the given lengths with hyphens between them. -/
def ungroup? : List Nat → List Char → Option (List Char)
  | [], _ => none
  | [n], cs => if cs.length = n then some cs else none
  | n :: ns, cs =>
    match cs.drop n with
    | '-' :: rest => (ungroup? ns rest).map fun ds => cs.take n ++ ds
    | _ => none

/-- What an identifier starts with as a name of the scheme `urn`, in letters of either case. -/
def urnPrefix : List Char := "urn:uuid:".toList

/-- What the wrapping of an identifier holds: braces, or a name of the scheme `urn`. -/
def unwrapped (cs : List Char) : List Char :=
  if (cs.take urnPrefix.length).map Char.toLower = urnPrefix then cs.drop urnPrefix.length
  else match cs with
    | '\x7b' :: rest => if rest.getLast? = some '\x7d' then rest.dropLast else cs
    | cs => cs

/-- The identifier of a text: 32 digits, or digits in groups that may be wrapped. -/
def parse? (cs : List Char) : Option Uuid := do
  let digits ← if cs.length = 32 then some cs else ungroup? groups (unwrapped cs)
  let n ← Text.digits? Text.hexDigit? 16 digits
  return ⟨BitVec.ofNat 128 n⟩

def group : List Nat → List Char → List Char
  | [], cs => cs
  | [_], cs => cs
  | n :: ns, cs => cs.take n ++ '-' :: group ns (cs.drop n)

def text (u : Uuid) : String :=
  String.ofList (group groups (Text.padded 32 (Text.hex u.number.toNat)))

end Uuid
end Firewall.Audit
