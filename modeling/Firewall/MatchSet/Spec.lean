import Firewall.MatchSet.Basic

namespace Firewall

def portBytes (p : UInt16) : List UInt8 := Bytes.ofNat 2 p.toNat

namespace Spec

/-- Applies a reader to each text in order; the first failure counts. -/
def readAll (read : α → Except Error β) : List α → Except Error (List β)
  | [] => .ok []
  | s :: ss =>
    match read s with
    | .ok e =>
      match readAll read ss with
      | .ok es => .ok (e :: es)
      | .error fault => .error fault
    | .error fault => .error fault

def port? (cs : List Char) : Option UInt16 :=
  (Text.number? 65535 (Text.trim cs)).map UInt16.ofNat

/-- A port within a specification, which the failure quotes. -/
def port (cs spec : List Char) : Except Error UInt16 :=
  match port? cs with
  | some p => .ok p
  | none => .error (.portMalformed (String.ofList cs) (String.ofList spec))

def portElement (interval : Bool) (text : String) : Except Error Element :=
  let spec := Text.trim text.toList
  match Text.splitOnce '-' spec with
  | some (low, high) =>
    match port low spec with
    | .error fault => .error fault
    | .ok low =>
      match port high spec with
      | .error fault => .error fault
      | .ok high =>
        if high < low then .error (.portRangeReversed (String.ofList spec))
        else if !interval ∧ low ≠ high then .error (.portRangeDiscrete (String.ofList spec))
        else .ok (.range (portBytes low) (portBytes high))
  | none =>
    match port spec spec with
    | .ok p => .ok (.single (portBytes p))
    | .error fault => .error fault

/-- An address of a family within a specification; an address that stands for an IPv4 address is
one. -/
def address (family : Family) (cs spec : List Char) : Except Error Address :=
  match Address.parse? (Text.trim cs) with
  | none => .error (.addressMalformed (String.ofList cs) (String.ofList spec))
  | some a =>
    if a.unmapped.family = family then .ok a.unmapped
    else .error (.addressOutsideSet (String.ofList cs) family)

def networkElement (family : Family) (interval : Bool) (spec : List Char) : Except Error Element :=
  match Network.parse? spec with
  | none => .error (.networkMalformed (String.ofList spec))
  | some n =>
    if n.address.family ≠ family then .error (.networkOutsideSet (String.ofList spec) family)
    else if !interval ∧ n.base.bytes ≠ n.last.bytes then
      .error (.networkDiscrete (String.ofList spec))
    else .ok (.range n.base.bytes n.last.bytes)

def addressRange (family : Family) (interval : Bool) (low high spec : List Char) :
    Except Error Element :=
  match address family low spec with
  | .error fault => .error fault
  | .ok low =>
    match address family high spec with
    | .error fault => .error fault
    | .ok high =>
      if Bytes.order low.bytes high.bytes = .gt then
        .error (.addressRangeReversed (String.ofList spec))
      else if !interval ∧ low.bytes ≠ high.bytes then
        .error (.addressRangeDiscrete (String.ofList spec))
      else .ok (.range low.bytes high.bytes)

def addressElement (family : Family) (interval : Bool) (text : String) : Except Error Element :=
  let spec := Text.trim text.toList
  if spec.contains '/' then networkElement family interval spec
  else match Text.splitOnce '-' spec with
    | some (low, high) => addressRange family interval low high spec
    | none =>
      match address family spec spec with
      | .ok a => .ok (.single a.bytes)
      | .error fault => .error fault

def ctStates : List (List Char) → Except Error CtState
  | [] => .error (.ctStateUnknown "")
  | [w] => CtState.ofName (String.ofList (Text.trim w))
  | w :: ws =>
    match CtState.ofName (String.ofList (Text.trim w)) with
    | .error fault => .error fault
    | .ok s =>
      match ctStates ws with
      | .ok t => .ok (s.union t)
      | .error fault => .error fault

def ctStateElement (text : String) : Except Error Element :=
  match ctStates (Text.pieces (· == ',') text.toList) with
  | .ok s => .ok (.single s.bytes)
  | .error fault => .error fault

/-- The element that a text spells for keys of a type. Without the interval flag a range has to hold one key only. -/
def element (keyType : KeyType) (interval : Bool) (text : String) : Except Error Element :=
  match keyType with
  | .inetService => portElement interval text
  | .ipv4Addr => addressElement .ipv4 interval text
  | .ipv6Addr => addressElement .ipv6 interval text
  | .ctState => ctStateElement text

def elements (keyType : KeyType) (interval : Bool) (specs : List String) :
    Except Error (List Element) :=
  readAll (element keyType interval) specs

end Spec

/-- The elements that texts spell for a set. -/
def MatchSet.elementsOfSpecs (s : MatchSet) (specs : List String) : Except Error (List Element) :=
  Spec.elements s.keyType s.flags.interval specs

/-- The text of a key; empty for bytes that are no key of the type. -/
def KeyType.keyText (k : KeyType) (bs : List UInt8) : List Char :=
  match k with
  | .inetService => ((Element.port? bs).map fun p => Text.decimal p.toNat).getD []
  | .ipv4Addr => if bs.length = 4 then ((Address.ofBytes? bs).map Address.chars).getD [] else []
  | .ipv6Addr => if bs.length = 16 then ((Address.ofBytes? bs).map Address.chars).getD [] else []
  | .ctState => ((CtState.ofBytes? bs).map fun s => s.text.toList).getD []

def countOnes (n : Nat) : Nat :=
  if n = 0 then 0 else n % 2 + countOnes (n / 2)
termination_by n
decreasing_by omega

/-- Addresses as numbers are below this bound. -/
def addressBound : Nat := 1 <<< 128

/-- The length of the network that holds exactly the keys from `first` to `last`, if there is one. The
bits in which they differ are the host part: ones without a gap, all zero in the first key. -/
def KeyType.networkLength? (k : KeyType) (first last : List UInt8) : Option UInt32 :=
  if k.family?.isNone then none
  else
    let first := Bytes.toNat first % addressBound
    let host := first ^^^ Bytes.toNat last % addressBound
    if host &&& (host + 1) = 0 ∧ first &&& host = 0 then
      some (UInt32.ofNat (k.length * 8) - UInt32.ofNat (countOnes host))
    else none

/-- The text of an element: a network where the keys are one, a range, or a key. -/
def Element.specChars (k : KeyType) (e : Element) : List Char :=
  match e.keyEnd with
  | none => k.keyText e.key
  | some last =>
    match k.networkLength? e.key last with
    | some length => k.keyText e.key ++ '/' :: Text.decimal length.toNat
    | none => k.keyText e.key ++ '-' :: k.keyText last

def Element.spec (k : KeyType) (e : Element) : String := String.ofList (e.specChars k)

end Firewall
