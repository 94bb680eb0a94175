import Rendezvous.Numeral.Decimal
import Rendezvous.Text.Utf8

namespace Rendezvous.Text.Base64Url

/-- Why octets are not such a writing. Offsets count from zero. -/
inductive Fault where
  | symbol (b : UInt8) (offset : Nat)
  | length (n : Nat)
  | lastSymbol (b : UInt8) (offset : Nat)
deriving DecidableEq, Repr

def Fault.message : Fault → String
  | .symbol b offset =>
    "Invalid symbol " ++ Numeral.Decimal.text b.toNat ++ ", offset " ++
      Numeral.Decimal.text offset ++ "."
  | .length n => "Invalid input length: " ++ Numeral.Decimal.text n
  | .lastSymbol b offset =>
    "Invalid last symbol " ++ Numeral.Decimal.text b.toNat ++ ", offset " ++
      Numeral.Decimal.text offset ++ "."

def symbol (s : Nat) : Char :=
  if s < 26 then Char.ofNat (65 + s)
  else if s < 52 then Char.ofNat (71 + s)
  else if s < 62 then Char.ofNat (s - 4)
  else if s = 62 then '-' else '_'

def sextet? (b : UInt8) : Option Nat :=
  let n := b.toNat
  if 65 ≤ n ∧ n ≤ 90 then some (n - 65)
  else if 97 ≤ n ∧ n ≤ 122 then some (n - 71)
  else if 48 ≤ n ∧ n ≤ 57 then some (n + 4)
  else if n = 45 then some 62
  else if n = 95 then some 63
  else none

def toSextets : List UInt8 → List Nat
  | [] => []
  | [a] => [a.toNat / 4, a.toNat % 4 * 16]
  | [a, b] => [a.toNat / 4, a.toNat % 4 * 16 + b.toNat / 16, b.toNat % 16 * 4]
  | a :: b :: c :: bs =>
    (a.toNat / 4) :: (a.toNat % 4 * 16 + b.toNat / 16) :: (b.toNat % 16 * 4 + c.toNat / 64) ::
      (c.toNat % 64) :: toSextets bs

/-- The octets with the given bits, if the number of bits is possible and those left over are
zero. -/
def ofSextets? : List Nat → Option (List UInt8)
  | [] => some []
  | [_] => none
  | [w, x] => if x % 16 = 0 then some [.ofNat (w * 4 + x / 16)] else none
  | [w, x, y] =>
    if y % 4 = 0 then some [.ofNat (w * 4 + x / 16), .ofNat (x % 16 * 16 + y / 4)] else none
  | w :: x :: y :: z :: ss =>
    (ofSextets? ss).map fun bs =>
      .ofNat (w * 4 + x / 16) :: .ofNat (x % 16 * 16 + y / 4) :: .ofNat (y % 4 * 64 + z) :: bs

def encode (bs : List UInt8) : String := String.ofList ((toSextets bs).map symbol)

def sextets (offset : Nat) : List UInt8 → Except Fault (List Nat)
  | [] => .ok []
  | b :: bs =>
    match sextet? b with
    | none => .error (.symbol b offset)
    | some s => (sextets (offset + 1) bs).map (s :: ·)

/-- Reads octets. A foreign octet that alone makes the length impossible is reported before any
other. -/
def decode (bs : List UInt8) : Except Fault (List UInt8) :=
  match bs.getLast? with
  | none => .ok []
  | some last =>
    let offset := bs.length - 1
    if bs.length % 4 = 1 ∧ sextet? last = none then .error (.symbol last offset)
    else
      (sextets 0 bs).bind fun ss =>
        match ofSextets? ss with
        | some octets => .ok octets
        | none =>
          .error (if bs.length % 4 = 1 then .length bs.length else .lastSymbol last offset)

end Rendezvous.Text.Base64Url
