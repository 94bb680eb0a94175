import Rendezvous.Numeral.Hexadecimal
import Rendezvous.Text.Combining
import Rendezvous.Text.Ignorable
import Rendezvous.Text.Unprintable

namespace Rendezvous.Text.Quoted

def codePoint (c : Char) : List Char :=
  ['\\', 'u', '\x7b'] ++ Numeral.Hexadecimal.chars c.toNat ++ ['\x7d']

def isHidden (c : Char) : Bool :=
  Combining.isCombining c || Ignorable.isIgnorable c || Unprintable.isUnprintable c

/-- A character between two `mark`s: the mark, the backslash and four controls after a backslash,
other hidden characters by code point, all else as it is. -/
def escape (mark c : Char) : List Char :=
  if c = '\x00' then ['\\', '0']
  else if c = '\t' then ['\\', 't']
  else if c = '\r' then ['\\', 'r']
  else if c = '\n' then ['\\', 'n']
  else if c = mark ∨ c = '\\' then ['\\', c]
  else if isHidden c then codePoint c
  else [c]

def text (s : String) : String :=
  String.ofList (['"'] ++ s.toList.flatMap (escape '"') ++ ['"'])

def char (c : Char) : String := String.ofList (['\''] ++ escape '\'' c ++ ['\''])

end Rendezvous.Text.Quoted
