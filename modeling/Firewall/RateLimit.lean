import Firewall.Error

namespace Firewall

inductive RateUnit where
  | packets
  | bytes
  deriving DecidableEq, Repr

inductive Period where
  | second
  | minute
  | hour
  | day
  | week
  deriving DecidableEq, Repr

/-- A rate, with the number of packets or bytes that may exceed it at once. -/
structure RateLimit where
  rate : UInt64
  unit : RateUnit
  per : Period
  burst : UInt32
  /-- Matches the packets beyond the rate instead of those within. -/
  beyond : Bool
  deriving DecidableEq, Repr

namespace RateUnit

def name : RateUnit → String
  | .packets => "packets"
  | .bytes => "bytes"

def letter : RateUnit → Char
  | .packets => 'p'
  | .bytes => 'b'

def ofLetter? : List Char → Option RateUnit
  | ['p'] => some .packets
  | ['b'] => some .bytes
  | _ => none

end RateUnit

namespace Period

def all : List Period := [.second, .minute, .hour, .day, .week]

def name : Period → String
  | .second => "second"
  | .minute => "minute"
  | .hour => "hour"
  | .day => "day"
  | .week => "week"

def letter : Period → Char
  | .second => 's'
  | .minute => 'm'
  | .hour => 'h'
  | .day => 'd'
  | .week => 'w'

/-- A period by its name or letter. -/
def ofText? (cs : List Char) : Option Period :=
  all.find? fun p => cs = p.name.toList ∨ cs = [p.letter]

end Period

namespace RateLimit

/-- A number with a plus sign behind it, or without one. -/
def splitBeyond (cs : List Char) : List Char × Bool :=
  if cs.getLast? = some '+' then (cs.dropLast, true) else (cs, false)

/-- The limit of its three parts; the rate is not zero. -/
def ofParts? (head : List Char) (unit : RateUnit) (per : List Char) : Option RateLimit := do
  let (digits, beyond) := splitBeyond head
  let rate ← Text.number? 0xFFFFFFFFFFFFFFFF digits
  if rate = 0 then none
  else
    let per ← Period.ofText? per
    some ⟨UInt64.ofNat rate, unit, per, 0, beyond⟩

/-- The limit that a text spells, with burst zero. -/
def parse? (cs : List Char) : Option RateLimit :=
  match Text.pieces (· == '/') (Text.trim cs) with
  | [head, per] => ofParts? head .packets per
  | [head, unit, per] => (RateUnit.ofLetter? unit).bind fun u => ofParts? head u per
  | _ => none

def parse (spec : String) (burst : UInt32) : Except Error RateLimit :=
  match parse? spec.toList with
  | some limit => .ok { limit with burst }
  | none => .error (.rateLimitMalformed spec)

/-- The text of a limit, without its burst. -/
def chars (l : RateLimit) : List Char :=
  Text.decimal l.rate.toNat ++ (if l.beyond then ['+'] else []) ++
    ['/', l.unit.letter, '/', l.per.letter]

def text (l : RateLimit) : String := String.ofList l.chars

end RateLimit
end Firewall
