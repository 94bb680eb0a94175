import Rendezvous.Numeral.Decimal

namespace Rendezvous.Numeral.Bounded

inductive Flaw where
  | empty
  | invalidDigit
  | tooLarge
  | tooSmall
deriving DecidableEq, Repr

def Flaw.message : Flaw → String
  | empty => "cannot parse integer from empty string"
  | invalidDigit => "invalid digit found in string"
  | tooLarge => "number too large to fit in target type"
  | tooSmall => "number too small to fit in target type"

/-- Reads digits onto a number that must not exceed the limit. The first flaw from the left
counts. -/
def magnitude (limit : Nat) (excess : Flaw) (n : Nat) : List Char → Except Flaw Nat
  | [] => .ok n
  | c :: cs =>
    match Decimal.digit? c with
    | none => .error .invalidDigit
    | some d => if limit < 10 * n + d then .error excess else magnitude limit excess (10 * n + d) cs

def read (below above : Nat) : List Char → Except Flaw Int
  | [] => .error .empty
  | '+' :: c :: cs => (magnitude above .tooLarge 0 (c :: cs)).map Int.ofNat
  | '-' :: c :: cs =>
    if below = 0 then .error .invalidDigit
    else (magnitude below .tooSmall 0 (c :: cs)).map fun n => -Int.ofNat n
  | cs => (magnitude above .tooLarge 0 cs).map Int.ofNat

end Rendezvous.Numeral.Bounded
