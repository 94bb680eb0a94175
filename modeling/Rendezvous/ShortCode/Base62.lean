import Rendezvous.Numeral.Positional
import Rendezvous.Text.Quoted

namespace Rendezvous.ShortCode.Base62

inductive Fault where
  | invalidCharacter (c : Char)
  | overflow
deriving DecidableEq, Repr

def Fault.message : Fault → String
  | .invalidCharacter c => "Invalid character in base62 code: " ++ Text.Quoted.char c
  | .overflow => "Base62 code overflows a 64-bit value"

def digitChar (d : Nat) : Char :=
  Char.ofNat (if d < 10 then 48 + d else if d < 36 then 87 + d else 29 + d)

def digit? (c : Char) : Option UInt64 :=
  let n := c.toNat
  if 48 ≤ n ∧ n ≤ 57 then some (.ofNat (n - 48))
  else if 97 ≤ n ∧ n ≤ 122 then some (.ofNat (n - 87))
  else if 65 ≤ n ∧ n ≤ 90 then some (.ofNat (n - 29))
  else none

def encode (w : UInt64) : String :=
  String.ofList ((Numeral.Positional.digits 62 w.toNat).map digitChar)

def maxWord : UInt64 := 0xffffffffffffffff

/-- Reads further digits after those whose value is `acc`. The bound is tested before the step, so
that the step never wraps. -/
def decodeFrom (acc : UInt64) : List Char → Except Fault UInt64
  | [] => .ok acc
  | c :: cs =>
    match digit? c with
    | none => .error (.invalidCharacter c)
    | some d => if (maxWord - d) / 62 < acc then .error .overflow else decodeFrom (acc * 62 + d) cs

/-- Reads a word; the empty text stands for zero. -/
def decode (s : String) : Except Fault UInt64 := decodeFrom 0 s.toList

end Rendezvous.ShortCode.Base62
