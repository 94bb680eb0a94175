import Rendezvous.Json.Value

namespace Rendezvous.Json

structure Literal where
  negative : Bool
  whole : List Nat
  fraction : List Nat
  exponent : Int
  integral : Bool
deriving DecidableEq, Repr

namespace Literal

def digit? (b : UInt8) : Option Nat :=
  if 48 ≤ b.toNat ∧ b.toNat ≤ 57 then some (b.toNat - 48) else none

def digits : List UInt8 → List Nat × List UInt8
  | [] => ([], [])
  | b :: bs =>
    match digit? b with
    | some d => let (ds, rest) := digits bs; (d :: ds, rest)
    | none => ([], b :: bs)

def someDigits? (bs : List UInt8) : Option (List Nat × List UInt8) :=
  match digits bs with
  | ([], _) => none
  | (d :: ds, rest) => some (d :: ds, rest)

def fraction? : List UInt8 → Option (List Nat × List UInt8)
  | 0x2e :: bs => someDigits? bs
  | bs => some ([], bs)

/-- A sign, which may be missing; whether it is a minus. -/
def exponentSign : List UInt8 → Bool × List UInt8
  | 0x2b :: bs => (false, bs)
  | 0x2d :: bs => (true, bs)
  | bs => (false, bs)

/-- An optional power of ten; none stands for the power zero. -/
def exponent? : List UInt8 → Option (Option Int × List UInt8)
  | [] => some (none, [])
  | b :: bs =>
    if b = 0x65 ∨ b = 0x45 then
      let (minus, bs) := exponentSign bs
      (someDigits? bs).map fun (ds, rest) =>
        let n : Int := Numeral.Positional.value 10 ds
        (some (if minus then -n else n), rest)
    else some (none, b :: bs)

def tight : List Nat → Bool
  | 0 :: _ :: _ => false
  | _ => true

def scan? (bs : List UInt8) : Option (Literal × List UInt8) := do
  let (negative, bs) := match bs with
    | 0x2d :: bs => (true, bs)
    | bs => (false, bs)
  let (whole, bs) ← someDigits? bs
  guard (tight whole)
  let (fraction, bs) ← fraction? bs
  let (exponent, bs) ← exponent? bs
  return (⟨negative, whole, fraction, exponent.getD 0, fraction.isEmpty && exponent.isNone⟩, bs)

/-- Appends digits to a number as long as it stays below 2^64; the digits left over come second. -/
def absorb (acc : Nat) : List Nat → Nat × List Nat
  | [] => (acc, [])
  | d :: ds =>
    if acc * 10 + d < 0x10000000000000000 then absorb (acc * 10 + d) ds else (acc, d :: ds)

/-- The number a literal stands for, if it is not too large. A whole number that fits in 64 bits is
kept exactly, but for minus zero. Of any other the first digits that fit in 64 bits are taken, and
scaled. -/
def number? (l : Literal) : Option Number :=
  let (whole, wholeRest) := absorb 0 l.whole
  if l.integral ∧ wholeRest = [] ∧ l.negative = false then some (.natural (.ofNat whole))
  else if l.integral ∧ wholeRest = [] ∧ 0 < whole ∧ whole ≤ 0x8000000000000000 then
    some (.negative (.ofInt (-whole)))
  else
    let (significand, fractionRest) := absorb whole l.fraction
    let e := l.exponent + wholeRest.length - ((l.fraction.length : Int) - fractionRest.length)
    do
      let x ← Numeral.Binary64.Magnitude.nearest? significand 1
      return .real ⟨l.negative, ← x.scale? e⟩

end Literal

end Rendezvous.Json
