import Rendezvous.Numeral.Positional

namespace Rendezvous.Numeral.Hexadecimal

def digitChar (d : Nat) : Char := Char.ofNat (if d < 10 then 48 + d else 87 + d)

def digit? (b : UInt8) : Option Nat :=
  if 48 ≤ b ∧ b ≤ 57 then some (b.toNat - 48)
  else if 97 ≤ b ∧ b ≤ 102 then some (b.toNat - 87)
  else if 65 ≤ b ∧ b ≤ 70 then some (b.toNat - 55)
  else none

def chars (n : Nat) : List Char := (Positional.digits 16 n).map digitChar

def octets (bs : List UInt8) : String :=
  String.ofList (bs.flatMap fun b => [digitChar (b.toNat / 16), digitChar (b.toNat % 16)])

end Rendezvous.Numeral.Hexadecimal
