import Rendezvous.Numeral.Hexadecimal
import Rendezvous.Numeral.Shortest

namespace Rendezvous

/-- A number: a whole number of 64 bits, without a sign or negative, or else a real one. -/
inductive Json.Number where
  | natural (n : UInt64)
  | negative (i : Int64)
  | real (x : Numeral.Binary64)
deriving DecidableEq, Repr

inductive Json where
  | null
  | boolean (b : Bool)
  | number (n : Json.Number)
  | string (s : String)
  | array (items : List Json)
  | object (members : List (String × Json))
deriving Repr

namespace Json

def Number.ofInt64 (i : Int64) : Number := if i < 0 then .negative i else .natural i.toUInt64

def Number.chars : Number → List Char
  | .natural n => Numeral.Decimal.chars n.toNat
  | .negative i => Numeral.Decimal.signedChars i.toInt
  | .real x => Numeral.Shortest.chars x

def escape (c : Char) : List Char :=
  if c = '"' then ['\\', '"']
  else if c = '\\' then ['\\', '\\']
  else if c = '\x08' then ['\\', 'b']
  else if c = '\x0c' then ['\\', 'f']
  else if c = '\n' then ['\\', 'n']
  else if c = '\r' then ['\\', 'r']
  else if c = '\t' then ['\\', 't']
  else if c.toNat < 32 then
    ['\\', 'u', '0', '0', Numeral.Hexadecimal.digitChar (c.toNat / 16),
      Numeral.Hexadecimal.digitChar (c.toNat % 16)]
  else [c]

def quote (s : String) : List Char := '"' :: s.toList.flatMap escape ++ ['"']

mutual

def chars : Json → List Char
  | null => ['n', 'u', 'l', 'l']
  | boolean true => ['t', 'r', 'u', 'e']
  | boolean false => ['f', 'a', 'l', 's', 'e']
  | number n => n.chars
  | string s => quote s
  | array [] => ['[', ']']
  | array (item :: items) => '[' :: chars item ++ itemsChars items
  | object [] => ['\x7b', '\x7d']
  | object (m :: members) => '\x7b' :: memberChars m ++ membersChars members

/-- The text of the items after the first one and of the closing bracket. -/
def itemsChars : List Json → List Char
  | [] => [']']
  | item :: items => ',' :: chars item ++ itemsChars items

def memberChars : String × Json → List Char
  | (key, value) => quote key ++ ':' :: chars value

def membersChars : List (String × Json) → List Char
  | [] => ['\x7d']
  | m :: members => ',' :: memberChars m ++ membersChars members

end

def text (v : Json) : String := String.ofList v.chars

end Json

end Rendezvous
