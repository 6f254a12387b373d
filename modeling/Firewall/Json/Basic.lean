import Firewall.Json.Number

namespace Firewall

inductive Json where
  | null
  | bool (value : Bool)
  | number (value : Json.Number)
  | string (value : String)
  | array (items : List Json)
  | object (members : List (String × Json))
  deriving Inhabited, Repr

namespace Json

def nat (n : Nat) : Json := .number (.int n)

def bytes (bs : List UInt8) : Json := .array (bs.map fun b => nat b.toNat)

def option (f : α → Json) : Option α → Json
  | none => .null
  | some a => f a

def strings (ss : List String) : Json := .array (ss.map .string)

def findMember? (name : String) : List (String × Json) → Option Json
  | [] => none
  | (k, v) :: ms => if k = name then some v else findMember? name ms

/-- The member of that name, `none` for a value that is no object. -/
def get? (name : String) : Json → Option Json
  | .object ms => findMember? name ms
  | _ => none

def items? : Json → Option (List Json)
  | .array xs => some xs
  | _ => none

def string? : Json → Option String
  | .string s => some s
  | _ => none

/-- The value of a number that is a natural number. -/
def nat? : Json → Option Nat
  | .number (.int (.ofNat n)) => some n
  | _ => none

/-- Adds a member to members that are ordered by name; a member of that name is replaced. -/
def insertMember (name : String) (value : Json) : List (String × Json) → List (String × Json)
  | [] => [(name, value)]
  | (k, v) :: ms =>
    if name < k then (name, value) :: (k, v) :: ms
    else if name = k then (name, value) :: ms
    else (k, v) :: insertMember name value ms

/-- Members ordered by name, the last of each name. -/
def orderMembers (ms : List (String × Json)) : List (String × Json) :=
  ms.foldl (fun acc (k, v) => insertMember k v acc) []

mutual
def canonical : Json → Json
  | .array xs => .array (canonicalItems xs)
  | .object ms => .object (orderMembers (canonicalMembers ms))
  | .null => .null
  | .bool b => .bool b
  | .number n => .number n
  | .string s => .string s
termination_by structural j => j
def canonicalItems : List Json → List Json
  | [] => []
  | x :: xs => canonical x :: canonicalItems xs
termination_by structural xs => xs
def canonicalMembers : List (String × Json) → List (String × Json)
  | [] => []
  | (k, v) :: ms => (k, canonical v) :: canonicalMembers ms
termination_by structural ms => ms
end

/-- A character inside a quoted string: the quote, the backslash and control characters are
escaped. -/
def escapeChar (c : Char) : List Char :=
  if c = '"' then ['\\', '"']
  else if c = '\\' then ['\\', '\\']
  else if c.toNat = 8 then ['\\', 'b']
  else if c = '\t' then ['\\', 't']
  else if c = '\n' then ['\\', 'n']
  else if c.toNat = 12 then ['\\', 'f']
  else if c = '\r' then ['\\', 'r']
  else if c.toNat < 0x20 then
    '\\' :: 'u' :: '0' :: '0' :: Text.hexBytes [UInt8.ofNat c.toNat]
  else [c]

def quote (s : String) : List Char :=
  '"' :: s.toList.flatMap escapeChar ++ ['"']

mutual
/-- The text of a value without blanks. -/
def compact : Json → List Char
  | .null => ['n', 'u', 'l', 'l']
  | .bool true => ['t', 'r', 'u', 'e']
  | .bool false => ['f', 'a', 'l', 's', 'e']
  | .number n => n.text
  | .string s => quote s
  | .array xs => '[' :: compactItems xs
  | .object ms => '\x7b' :: compactMembers ms
termination_by structural j => j
/-- The items of an array and the closing bracket. -/
def compactItems : List Json → List Char
  | [] => [']']
  | x :: xs => compact x ++ compactMoreItems xs
termination_by structural xs => xs
/-- The items after the first, a comma before each, and the closing bracket. -/
def compactMoreItems : List Json → List Char
  | [] => [']']
  | x :: xs => ',' :: (compact x ++ compactMoreItems xs)
termination_by structural xs => xs
def compactMembers : List (String × Json) → List Char
  | [] => ['\x7d']
  | (k, v) :: ms => quote k ++ ':' :: (compact v ++ compactMoreMembers ms)
termination_by structural ms => ms
/-- The members after the first, a comma before each, and the closing brace. -/
def compactMoreMembers : List (String × Json) → List Char
  | [] => ['\x7d']
  | (k, v) :: ms => ',' :: (quote k ++ ':' :: (compact v ++ compactMoreMembers ms))
termination_by structural ms => ms
end

def text (j : Json) : String := String.ofList (compact j)

/-- A new line at an indentation of two blanks for each level. -/
def newline (level : Nat) : List Char := '\n' :: List.replicate (2 * level) ' '

mutual
/-- The text of a value at a level of indentation, one item or member to a line. -/
def pretty (level : Nat) : Json → List Char
  | .array [] => ['[', ']']
  | .array (x :: xs) =>
    '[' :: (newline (level + 1) ++ pretty (level + 1) x ++ prettyItems level xs)
  | .object [] => ['\x7b', '\x7d']
  | .object ((k, v) :: ms) =>
    '\x7b' :: (newline (level + 1) ++ quote k ++ [':', ' '] ++ pretty (level + 1) v ++
      prettyMembers level ms)
  | .null => compact .null
  | .bool b => compact (.bool b)
  | .number n => compact (.number n)
  | .string s => compact (.string s)
termination_by structural j => j
/-- The items after the first and the closing bracket. -/
def prettyItems (level : Nat) : List Json → List Char
  | [] => newline level ++ [']']
  | x :: xs => ',' :: (newline (level + 1) ++ pretty (level + 1) x ++ prettyItems level xs)
termination_by structural xs => xs
def prettyMembers (level : Nat) : List (String × Json) → List Char
  | [] => newline level ++ ['\x7d']
  | (k, v) :: ms =>
    ',' :: (newline (level + 1) ++ quote k ++ [':', ' '] ++ pretty (level + 1) v ++
      prettyMembers level ms)
termination_by structural ms => ms
end

def prettyText (j : Json) : String := String.ofList (pretty 0 j)

end Json
end Firewall
