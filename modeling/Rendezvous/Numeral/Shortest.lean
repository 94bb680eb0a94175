import Rendezvous.Numeral.Binary64
import Rendezvous.Numeral.Decimal

namespace Rendezvous.Numeral.Shortest

/-- The number `digits * 10 ^ exponent`. -/
structure Decimal where
  digits : Nat
  exponent : Int
deriving DecidableEq, Repr

def Decimal.ratio (d : Decimal) : Nat × Nat :=
  (d.digits * Positional.weight 10 d.exponent.toNat, Positional.weight 10 (-d.exponent).toNat)

def Decimal.readsAs (d : Decimal) (x : Binary64.Magnitude) : Bool :=
  Binary64.Magnitude.nearest? d.ratio.1 d.ratio.2 == some x

def floorLog10 (num den : Nat) : Int :=
  if den ≤ num then ((Positional.digits 10 (num / den)).length : Int) - 1
  else -((Positional.digits 10 ((den + num - 1) / num - 1)).length : Int)

/-- The decimal with `n` digits that is nearest to a magnitude among those that read back as it. -/
def withDigits? (x : Binary64.Magnitude) (n : Nat) : Option Decimal :=
  let (num, den) := x.ratio
  let e := floorLog10 num den - (n : Int) + 1
  let num := num * Positional.weight 10 (-e).toNat
  let den := den * Positional.weight 10 e.toNat
  let below : Decimal := ⟨num / den, e⟩
  let above : Decimal := ⟨num / den + 1, e⟩
  let twice := 2 * (num % den)
  let belowFirst := twice < den || (twice == den && below.digits % 2 == 0)
  let (first, second) := if belowFirst then (below, above) else (above, below)
  if first.readsAs x then some first else if second.readsAs x then some second else none

/-- The decimal with the fewest digits that reads back as a positive magnitude. Seventeen digits
always do. -/
def ofMagnitude (x : Binary64.Magnitude) : Decimal :=
  ((List.range 17).findSome? fun n => withDigits? x (n + 1)).getD ⟨x.mantissa, x.exponent⟩

def Decimal.trim (d : Decimal) : Decimal :=
  if h : d.digits = 0 then d
  else if d.digits % 10 = 0 then Decimal.trim ⟨d.digits / 10, d.exponent + 1⟩
  else d
termination_by d.digits
decreasing_by exact Nat.div_lt_self (by omega) (by omega)

structure Layout where
  leastExponent : Int
  greatestExponent : Int

/-- Numbers from 10^-5 up to but not including 10^16 are written out; the exponents of others have a
sign. -/
def layout : Layout := ⟨-5, 15⟩

def padded (n : Nat) (cs : List Char) : List Char := List.replicate (n - cs.length) '0' ++ cs

/-- The text of a positive decimal. A whole number that is written out ends in `.0`. -/
def Decimal.chars (l : Layout) (d : Decimal) : List Char :=
  let cs := Numeral.Decimal.chars d.digits
  let e := d.exponent + cs.length - 1
  if l.leastExponent ≤ e ∧ e ≤ l.greatestExponent then
    if 0 ≤ d.exponent then cs ++ List.replicate d.exponent.toNat '0' ++ ['.', '0']
    else if 0 ≤ e then cs.take (e.toNat + 1) ++ ['.'] ++ cs.drop (e.toNat + 1)
    else ['0', '.'] ++ padded (-d.exponent).toNat cs
  else
    cs.take 1 ++ (if cs.length = 1 then [] else '.' :: cs.drop 1) ++
      ['e', if e < 0 then '-' else '+'] ++ Numeral.Decimal.chars e.natAbs

def chars (x : Binary64) : List Char :=
  (if x.negative then ['-'] else []) ++
    if x.magnitude.mantissa = 0 then ['0', '.', '0']
    else (ofMagnitude x.magnitude).trim.chars layout

end Rendezvous.Numeral.Shortest
