import Rendezvous.Numeral.Positional

namespace Rendezvous.Numeral.Binary64

/-- The number `mantissa * 2 ^ exponent`. -/
structure Magnitude where
  mantissa : Nat
  exponent : Int
deriving DecidableEq, Repr

namespace Magnitude

def zero : Magnitude := ⟨0, -1074⟩

def ratio (x : Magnitude) : Nat × Nat :=
  (x.mantissa * Positional.weight 2 x.exponent.toNat, Positional.weight 2 (-x.exponent).toNat)

/-- The integer nearest to a ratio, the even one of two. -/
def roundDiv (num den : Nat) : Nat :=
  let q := num / den
  let r := num % den
  if 2 * r < den ∨ (2 * r = den ∧ q % 2 = 0) then q else q + 1

/-- The largest `k` for which `2 ^ k` does not exceed a positive ratio. -/
def floorLog2 (num den : Nat) : Int :=
  let k : Int := num.log2 - den.log2
  if den * Positional.weight 2 k.toNat ≤ num * Positional.weight 2 (-k).toNat then k else k - 1

def nearest? (num den : Nat) : Option Magnitude :=
  if num = 0 then some zero
  else
    let e := max (floorLog2 num den - 52) (-1074)
    let m := roundDiv (num * Positional.weight 2 (-e).toNat) (den * Positional.weight 2 e.toNat)
    let x : Magnitude := if m = 0x20000000000000 then ⟨0x10000000000000, e + 1⟩ else ⟨m, e⟩
    if x.exponent ≤ 971 then some x else none

def times? (x y : Magnitude) : Option Magnitude :=
  nearest? (x.ratio.1 * y.ratio.1) (x.ratio.2 * y.ratio.2)

def over? (x y : Magnitude) : Option Magnitude :=
  nearest? (x.ratio.1 * y.ratio.2) (x.ratio.2 * y.ratio.1)

def powerOfTen? (n : Nat) : Option Magnitude := nearest? (Positional.weight 10 n) 1

/-- Divides by 10^308, the largest power of ten that is near a magnitude, up to `n` times. -/
def down? : Nat → Magnitude → Option Magnitude
  | 0, x => some x
  | n + 1, x =>
    if x.mantissa = 0 then some x
    else (powerOfTen? 308).bind fun p => (x.over? p).bind (down? n)

/-- A magnitude times a power of ten, rounded at each factor. -/
def scale? (x : Magnitude) (e : Int) : Option Magnitude :=
  if 308 < e then if x.mantissa = 0 then some x else none
  else if 0 ≤ e then (powerOfTen? e.toNat).bind x.times?
  else
    let steps := ((-e - 1) / 308).toNat
    (down? steps x).bind fun y =>
      if y.mantissa = 0 then some y
      else (powerOfTen? (-e - 308 * steps).toNat).bind y.over?

end Magnitude

end Binary64

structure Binary64 where
  negative : Bool
  magnitude : Binary64.Magnitude
deriving DecidableEq, Repr

end Rendezvous.Numeral
