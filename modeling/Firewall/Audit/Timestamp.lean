import Firewall.Text.Numeral

namespace Firewall.Audit

/-- A date of the Gregorian calendar, which also counts the years before its introduction. -/
structure Date where
  year : Int
  month : Nat
  day : Nat
  deriving DecidableEq, Repr

namespace Date

/-- Every fourth year is a leap year, of the full centuries only every fourth. -/
def isLeap (year : Int) : Bool := year % 4 == 0 && (year % 100 != 0 || year % 400 == 0)

def daysIn (year : Int) (month : Nat) : Nat :=
  if month = 2 then (if isLeap year then 29 else 28)
  else if [4, 6, 9, 11].contains month then 30
  else 31

def firstYear : Int := -262143

def lastYear : Int := 262142

def isValid (d : Date) : Bool :=
  firstYear ≤ d.year && d.year ≤ lastYear && 1 ≤ d.month && d.month ≤ 12 && 1 ≤ d.day &&
    d.day ≤ daysIn d.year d.month

def next (d : Date) : Date :=
  if d.day < daysIn d.year d.month then { d with day := d.day + 1 }
  else if d.month < 12 then ⟨d.year, d.month + 1, 1⟩
  else ⟨d.year + 1, 1, 1⟩

def previous (d : Date) : Date :=
  if 1 < d.day then { d with day := d.day - 1 }
  else if 1 < d.month then ⟨d.year, d.month - 1, daysIn d.year (d.month - 1)⟩
  else ⟨d.year - 1, 12, 31⟩

end Date

def dayMinutes : Nat := 24 * 60

structure Timestamp where
  date : Date
  /-- The minute of the day. -/
  minute : Nat
  /-- The second of the minute; 60 in a leap second. -/
  second : Nat
  nanosecond : Nat
  deriving DecidableEq, Repr

namespace Timestamp

/-- A number of at least one and at most `width` digits, and what follows it. -/
def takeNumber? (width : Nat) (cs : List Char) : Option (Nat × List Char) :=
  let ds := (cs.take width).takeWhile Char.isDigit
  (Text.digits? Text.decimalDigit? 10 ds).map fun n => (n, cs.drop ds.length)

/-- Two digits at most, behind blanks, for a number in bounds. -/
def takeField? (low high : Nat) (cs : List Char) : Option (Nat × List Char) :=
  (takeNumber? 2 (cs.dropWhile Text.isBlank)).filter fun (n, _) => low ≤ n && n ≤ high

/-- Four digits of a year at most, or any number of them behind a sign. -/
def takeYear? (cs : List Char) : Option (Int × List Char) :=
  match cs.dropWhile Text.isBlank with
  | '-' :: cs => (takeNumber? cs.length cs).map fun (n, rest) => (-(n : Int), rest)
  | '+' :: cs => (takeNumber? cs.length cs).map fun (n, rest) => ((n : Int), rest)
  | cs => (takeNumber? 4 cs).map fun (n, rest) => ((n : Int), rest)

def takeSeparator? (separator : Char) (cs : List Char) : Option (List Char) :=
  match cs.dropWhile Text.isBlank with
  | c :: cs => if c = separator then some cs else none
  | [] => none

/-- Year, month and day with hyphens between them. -/
def takeDate? (cs : List Char) : Option (Date × List Char) := do
  let (year, cs) ← takeYear? cs
  let (month, cs) ← takeField? 1 12 (← takeSeparator? '-' cs)
  let (day, cs) ← takeField? 1 31 (← takeSeparator? '-' cs)
  let date : Date := ⟨year, month, day⟩
  if date.isValid then some (date, cs) else none

def takeDivider? : List Char → Option (List Char)
  | c :: cs => if c = 'T' ∨ c = 't' ∨ c = ' ' then some cs else none
  | [] => none

/-- The fraction of a second in nanoseconds; digits behind the ninth are dropped. -/
def takeFraction? : List Char → Option (Nat × List Char)
  | '.' :: cs =>
    let ds := (cs.take 9).takeWhile Char.isDigit
    (Text.digits? Text.decimalDigit? 10 ds).map fun n =>
      (n * Nat.pow 10 (9 - ds.length), (cs.drop ds.length).dropWhile Char.isDigit)
  | cs => some (0, cs)

/-- The minutes behind the sign of an offset, which are less than a day. -/
def takeOffsetMinutes? : List Char → Option (Nat × List Char)
  | a :: b :: cs => do
    let hours ← Text.digits? Text.decimalDigit? 10 [a, b]
    match cs.dropWhile fun c => c == ':' || Text.isBlank c with
    | a :: b :: cs =>
      let minutes ← Text.digits? Text.decimalDigit? 10 [a, b]
      if hours < 24 ∧ minutes < 60 then some (hours * 60 + minutes, cs) else none
    | _ => none
  | _ => none

/-- Whether a text starts with the name of universal time, in any case. -/
def startsUniversal (cs : List Char) : Bool :=
  (cs.take 3).flatMap Text.lowerChar == ['u', 't', 'c']

/-- The offset of a local time to universal time in minutes: none, or digits behind a sign. -/
def takeOffset? (cs : List Char) : Option (Int × List Char) :=
  if startsUniversal cs then some (0, cs.drop 3)
  else match cs with
    | c :: cs =>
      if c = 'Z' ∨ c = 'z' then some (0, cs)
      else if c = '+' then (takeOffsetMinutes? cs).map fun (n, rest) => ((n : Int), rest)
      else if c = '-' ∨ c.toNat = 0x2212 then
        (takeOffsetMinutes? cs).map fun (n, rest) => (-(n : Int), rest)
      else none
    | [] => none

/-- The time that is `offset` minutes, less than a day, before a time. -/
def before (t : Timestamp) (offset : Int) : Timestamp :=
  let minute := t.minute - offset
  if minute < 0 then { t with date := t.date.previous, minute := (minute + dayMinutes).toNat }
  else if minute < dayMinutes then { t with minute := minute.toNat }
  else { t with date := t.date.next, minute := (minute - dayMinutes).toNat }

def parse? (cs : List Char) : Option Timestamp := do
  let (date, cs) ← takeDate? cs
  let (hour, cs) ← takeField? 0 23 (← takeDivider? cs)
  let (minute, cs) ← takeField? 0 59 (← takeSeparator? ':' cs)
  let (second, cs) ← takeField? 0 60 (← takeSeparator? ':' cs)
  let (nanosecond, cs) ← takeFraction? cs
  let (offset, cs) ← takeOffset? (cs.dropWhile Text.isBlank)
  let t := (Timestamp.mk date (hour * 60 + minute) second nanosecond).before offset
  if cs.all Text.isBlank ∧ t.date.isValid then some t else none

def twoDigits (n : Nat) : List Char := Text.padded 2 (Text.decimal n)

/-- A year with at least four digits, and with a sign if it is negative or has more of them. -/
def yearText (year : Int) : List Char :=
  let digits := Text.padded 4 (Text.decimal year.natAbs)
  if year < 0 then '-' :: digits
  else if 9999 < year then '+' :: digits
  else digits

/-- Nanoseconds as a fraction with no, three, six or nine digits. -/
def fractionText (n : Nat) : List Char :=
  if n = 0 then []
  else if n % 1000000 = 0 then '.' :: Text.padded 3 (Text.decimal (n / 1000000))
  else if n % 1000 = 0 then '.' :: Text.padded 6 (Text.decimal (n / 1000))
  else '.' :: Text.padded 9 (Text.decimal n)

def text (t : Timestamp) : String :=
  String.ofList (yearText t.date.year ++ '-' :: twoDigits t.date.month ++
    '-' :: twoDigits t.date.day ++ 'T' :: twoDigits (t.minute / 60) ++
    ':' :: twoDigits (t.minute % 60) ++ ':' :: twoDigits t.second ++
    fractionText t.nanosecond ++ ['Z'])

end Timestamp
end Firewall.Audit
