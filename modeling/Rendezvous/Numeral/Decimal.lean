import Rendezvous.Numeral.Positional

namespace Rendezvous.Numeral.Decimal

def digitChar (d : Nat) : Char := Char.ofNat (48 + d)

def digit? (c : Char) : Option Nat :=
  if 48 ≤ c.toNat ∧ c.toNat ≤ 57 then some (c.toNat - 48) else none

def chars (n : Nat) : List Char := (Positional.digits 10 n).map digitChar

def signedChars : Int → List Char
  | .ofNat n => chars n
  | .negSucc n => '-' :: chars (n + 1)

def text (n : Nat) : String := String.ofList (chars n)

def signedText (i : Int) : String := String.ofList (signedChars i)

theorem digit?_digitChar : ∀ d, d < 10 → digit? (digitChar d) = some d := by decide

end Rendezvous.Numeral.Decimal
