import Mathlib.FieldTheory.Finite.Extension
import Rendezvous.Crypto.Gcm
/-!
The multiplication of blocks is that of a field. A block is read as a polynomial over the field with
two elements, of a degree less than 128, and evaluated at a root x of the modulus
x^128 + x^7 + x^2 + x + 1; sums and products go over into sums and products. The modulus is
irreducible, since squaring x leads back to it after 128 times and not after 64. Main statement: a
factor other than zero can be cancelled.
-/
namespace Rendezvous.Crypto.Gcm

open Polynomial

section Evaluation

variable {R : Type*} [CommRing R]

def coefficient (b : Bool) : R := if b then 1 else 0

/-- The value at `x` of the last `n` bits of a block, the first of them the constant term. -/
def evalFrom (x : R) (a : Block) : Nat → R
  | 0 => 0
  | n + 1 => coefficient (a.getLsbD n) + x * evalFrom x a n

def eval (x : R) (a : Block) : R := evalFrom x a 128

theorem evalFrom_succ (x : R) (a : Block) (n : Nat) :
    evalFrom x a (n + 1) = coefficient (a.getLsbD n) + x * evalFrom x a n := rfl

theorem evalFrom_eq_zero (x : R) {a : Block} {n : Nat} (h : ∀ i < n, a.getLsbD i = false) :
    evalFrom x a n = 0 := by
  induction n with
  | zero => rfl
  | succ n ih =>
    have htail := ih fun i hi => h i (by omega)
    rw [evalFrom_succ, h n (by omega), htail]
    simp [coefficient]

theorem eval_zero (x : R) : eval x 0 = 0 :=
  evalFrom_eq_zero x fun _ _ => BitVec.getLsbD_zero

theorem map_evalFrom {S : Type*} [CommRing S] (f : R →+* S) (x : R) (a : Block) (n : Nat) :
    f (evalFrom x a n) = evalFrom (f x) a n := by
  induction n with
  | zero => exact map_zero f
  | succ n ih =>
    rw [evalFrom_succ, evalFrom_succ, map_add, map_mul, ih]
    congr 1
    cases a.getLsbD n
    · exact map_zero f
    · exact map_one f

variable [CharP R 2]

theorem coefficient_xor (a b : Bool) :
    (coefficient (a ^^ b) : R) = coefficient a + coefficient b := by
  have htwo : (1 + 1 : R) = 0 := CharTwo.add_self_eq_zero 1
  cases a <;> cases b <;> simp [coefficient, htwo]

theorem evalFrom_xor (x : R) (a b : Block) (n : Nat) :
    evalFrom x (a ^^^ b) n = evalFrom x a n + evalFrom x b n := by
  induction n with
  | zero => exact (add_zero 0).symm
  | succ n ih =>
    rw [evalFrom_succ, evalFrom_succ, evalFrom_succ, ih, BitVec.getLsbD_xor, coefficient_xor]
    ring

theorem eval_xor (x : R) (a b : Block) : eval x (a ^^^ b) = eval x a + eval x b :=
  evalFrom_xor x a b 128

omit [CharP R 2] in
theorem eval_if (x : R) (b : Bool) (a : Block) :
    eval x (if b then a else 0) = coefficient b * eval x a := by
  cases b with
  | false => exact (eval_zero x).trans (zero_mul _).symm
  | true => exact (one_mul _).symm

omit [CharP R 2] in
/-- A shift takes the last bit away, which is the term with the highest power. -/
theorem evalFrom_shift (x : R) (v : Block) (n : Nat) :
    evalFrom x v (n + 1) = evalFrom x (v >>> 1) n + x ^ n * coefficient (v.getLsbD 0) := by
  induction n with
  | zero => simp [evalFrom]
  | succ n ih =>
    have hbit : (v >>> 1).getLsbD n = v.getLsbD (n + 1) := by
      rw [BitVec.getLsbD_ushiftRight, Nat.add_comm]
    rw [evalFrom_succ x v, evalFrom_succ x (v >>> 1), hbit, ih]
    ring

omit [CharP R 2] in
/-- What stands for the power 128 of x. -/
theorem eval_reduction (x : R) :
    eval x 0xe1000000000000000000000000000000#128 = x ^ 7 + x ^ 2 + x + 1 := by
  have hlow : evalFrom x 0xe1000000000000000000000000000000#128 120 = 0 :=
    evalFrom_eq_zero x (by decide)
  obtain ⟨h₀, h₁, h₂, h₃, h₄, h₅, h₆, h₇⟩ :
      (0xe1000000000000000000000000000000#128).getLsbD 127 = true ∧
      (0xe1000000000000000000000000000000#128).getLsbD 126 = true ∧
      (0xe1000000000000000000000000000000#128).getLsbD 125 = true ∧
      (0xe1000000000000000000000000000000#128).getLsbD 124 = false ∧
      (0xe1000000000000000000000000000000#128).getLsbD 123 = false ∧
      (0xe1000000000000000000000000000000#128).getLsbD 122 = false ∧
      (0xe1000000000000000000000000000000#128).getLsbD 121 = false ∧
      (0xe1000000000000000000000000000000#128).getLsbD 120 = true := by decide
  rw [eval]
  iterate 8 rw [evalFrom_succ]
  rw [h₀, h₁, h₂, h₃, h₄, h₅, h₆, h₇, hlow]
  simp only [coefficient, if_true, Bool.false_eq_true, if_false]
  ring

theorem eval_timesX {x : R} (hx : x ^ 128 = x ^ 7 + x ^ 2 + x + 1) (v : Block) :
    eval x (timesX v) = x * eval x v := by
  have htop : evalFrom x v (128 + 1) = x * eval x v := by
    rw [evalFrom_succ, BitVec.getLsbD_of_ge v 128 (Nat.le_refl 128)]
    exact zero_add _
  have hshift := evalFrom_shift x v 128
  have hcarry : eval x (if v.getLsbD 0 then 0xe1000000000000000000000000000000#128 else 0#128) =
      coefficient (v.getLsbD 0) * x ^ 128 := by
    rw [hx, ← eval_reduction]
    exact eval_if x _ _
  rw [timesX, eval_xor, hcarry, ← htop, hshift, eval]
  ring

theorem eval_mulFrom {x : R} (hx : x ^ 128 = x ^ 7 + x ^ 2 + x + 1) (a v : Block) (n : Nat) :
    eval x (mulFrom a n v) = evalFrom x a n * eval x v := by
  induction n generalizing v with
  | zero => exact (eval_zero x).trans (zero_mul _).symm
  | succ n ih =>
    rw [mulFrom, eval_xor, eval_if, ih, eval_timesX hx, evalFrom_succ]
    ring

/-- Products of blocks go over into products. -/
theorem eval_mul {x : R} (hx : x ^ 128 = x ^ 7 + x ^ 2 + x + 1) (a b : Block) :
    eval x (mul a b) = eval x a * eval x b :=
  eval_mulFrom hx a b 128

end Evaluation

section

variable {F : Type*} [Field F]

theorem coefficient_inj {b c : Bool} (h : (coefficient b : F) = coefficient c) : b = c := by
  cases b <;> cases c <;> simp_all [coefficient]

theorem coefficient_eq_C (b : Bool) : (coefficient b : F[X]) = C (coefficient b) := by
  cases b <;> simp [coefficient]

theorem degree_evalFrom_lt (a : Block) (n : Nat) : (evalFrom (X : F[X]) a n).degree < n := by
  rw [degree_lt_iff_coeff_zero]
  induction n with
  | zero => exact fun _ _ => coeff_zero _
  | succ n ih =>
    intro m hm
    obtain ⟨k, rfl⟩ := Nat.exists_eq_add_of_le' hm
    have hterm : k + (n + 1) = k + n + 1 := rfl
    rw [evalFrom_succ, coefficient_eq_C, hterm, coeff_add, coeff_C_succ, coeff_X_mul, zero_add]
    exact ih (k + n) (Nat.le_add_left n k)

theorem evalFrom_X_inj {a b : Block} {n : Nat}
    (h : evalFrom (X : F[X]) a n = evalFrom X b n) : ∀ i < n, a.getLsbD i = b.getLsbD i := by
  induction n with
  | zero => exact fun i hi => absurd hi (Nat.not_lt_zero i)
  | succ n ih =>
    rw [evalFrom_succ, evalFrom_succ, coefficient_eq_C, coefficient_eq_C] at h
    have hbit : a.getLsbD n = b.getLsbD n := by
      have hzero := congrArg (coeff · 0) h
      simp only [coeff_add, coeff_C_zero, mul_coeff_zero, coeff_X_zero, zero_mul, add_zero] at hzero
      exact coefficient_inj hzero
    have hrest : evalFrom (X : F[X]) a n = evalFrom X b n := by
      rw [hbit] at h
      exact mul_left_cancel₀ X_ne_zero (add_left_cancel h)
    intro i hi
    rcases Nat.lt_succ_iff_lt_or_eq.mp hi with hi | rfl
    · exact ih hrest i hi
    · exact hbit

theorem eq_of_dvd_sub {p q Q : F[X]} {n : Nat} (hne : Q ≠ 0) (hQ : Q.natDegree = n)
    (hp : p.degree < n) (hq : q.degree < n) (h : Q ∣ p - q) : p = q := by
  have hdegree : (p - q).degree < Q.degree := by
    rw [degree_eq_natDegree hne, hQ]
    exact (degree_sub_le p q).trans_lt (max_lt hp hq)
  exact sub_eq_zero.mp (eq_zero_of_dvd_of_degree_lt h hdegree)

@[irreducible] noncomputable def polynomial (F : Type*) [Field F] (a : Block) : F[X] :=
  evalFrom X a 128

theorem degree_polynomial_lt (a : Block) : (polynomial F a).degree < (128 : Nat) := by
  unfold polynomial
  exact degree_evalFrom_lt a 128

theorem polynomial_injective : Function.Injective (polynomial F) := by
  unfold polynomial
  exact fun a b h => BitVec.eq_of_getLsbD_eq (evalFrom_X_inj h)

theorem map_polynomial {S : Type*} [CommRing S] (f : F[X] →+* S) (a : Block) :
    f (polynomial F a) = eval (f X) a := by
  unfold polynomial
  exact map_evalFrom f X a 128

end

def blockOne : Block := 0x80000000000000000000000000000000#128

def blockX : Block := 0x40000000000000000000000000000000#128

/-- The block that stands for x after 64 squarings. -/
def blockHalfway : Block := 0x6f9945a9e519a7229d4c1ad657f8a686#128

def squared (a : Block) : Nat → Block
  | 0 => a
  | n + 1 => squared (mul a a) n

theorem squared_blockX : squared blockX 64 = blockHalfway := by decide +kernel

theorem squared_blockHalfway : squared blockHalfway 64 = blockX := by decide +kernel

/-- The inverse of the sum of two blocks, which are therefore different in any field. -/
theorem mul_blockHalfway_add_blockX :
    mul 0x180da934bf53158251c13dbb149f5279#128 (blockHalfway ^^^ blockX) = blockOne := by
  decide +kernel

section

variable {R : Type*} [CommRing R]

theorem eval_blockOne (x : R) : eval x blockOne = 1 := by
  have hlow : evalFrom x blockOne 127 = 0 := evalFrom_eq_zero x (by decide)
  have hbit : blockOne.getLsbD 127 = true := by decide
  rw [eval, evalFrom_succ, hbit, hlow]
  simp [coefficient]

theorem eval_blockX (x : R) : eval x blockX = x := by
  have hlow : evalFrom x blockX 126 = 0 := evalFrom_eq_zero x (by decide)
  have hzero : blockX.getLsbD 127 = false := by decide
  have hone : blockX.getLsbD 126 = true := by decide
  rw [eval, evalFrom_succ, evalFrom_succ, hzero, hone, hlow]
  simp [coefficient]

variable [CharP R 2] {x : R}

theorem eval_squared (hx : x ^ 128 = x ^ 7 + x ^ 2 + x + 1) (a : Block) (n : Nat) :
    eval x (squared a n) = eval x a ^ 2 ^ n := by
  induction n generalizing a with
  | zero => simp [squared]
  | succ n ih => rw [squared, ih, eval_mul hx, ← pow_two, ← pow_mul, ← Nat.pow_succ']

theorem pow_eq_eval_blockHalfway (hx : x ^ 128 = x ^ 7 + x ^ 2 + x + 1) :
    x ^ 2 ^ 64 = eval x blockHalfway := by
  rw [← squared_blockX, eval_squared hx, eval_blockX]

theorem pow_eq_self (hx : x ^ 128 = x ^ 7 + x ^ 2 + x + 1) : x ^ 2 ^ 128 = x := by
  have hsplit : 2 ^ 128 = 2 ^ 64 * 2 ^ 64 := (pow_add 2 64 64)
  rw [hsplit, pow_mul, pow_eq_eval_blockHalfway hx, ← eval_squared hx, squared_blockHalfway,
    eval_blockX]

theorem pow_ne_self [Nontrivial R] (hx : x ^ 128 = x ^ 7 + x ^ 2 + x + 1) : x ^ 2 ^ 64 ≠ x := by
  intro h
  have hsum : eval x (blockHalfway ^^^ blockX) = 0 := by
    rw [eval_xor, ← pow_eq_eval_blockHalfway hx, eval_blockX, h, CharTwo.add_self_eq_zero]
  have hone := eval_mul hx 0x180da934bf53158251c13dbb149f5279#128 (blockHalfway ^^^ blockX)
  rw [mul_blockHalfway_add_blockX, eval_blockOne, hsum, mul_zero] at hone
  exact one_ne_zero hone

end

section

variable (F : Type*) [Field F]

noncomputable def modulus : F[X] := X ^ 128 + (X ^ 7 + X ^ 2 + X + 1)

theorem natDegree_modulus : (modulus F).natDegree = 128 := by
  unfold modulus
  compute_degree!

variable {F}

theorem root_pow {S : Type*} [CommRing S] [CharP S 2] {f : F[X] →+* S} (h : f (modulus F) = 0) :
    f X ^ 128 = f X ^ 7 + f X ^ 2 + f X + 1 := by
  unfold modulus at h
  rw [map_add, map_pow] at h
  rw [CharTwo.add_eq_zero.mp h, map_add, map_add, map_add, map_pow, map_pow, map_one]

variable {Q : F[X]}

theorem dvd_pow_sub_iff (hcard : Nat.card F = 2) (n : Nat) :
    Q ∣ X ^ Nat.card F ^ n - X ↔ AdjoinRoot.mk Q X ^ 2 ^ n = AdjoinRoot.mk Q X := by
  rw [← map_pow, AdjoinRoot.mk_eq_mk, hcard]

variable [CharP F 2] [Fact (Irreducible Q)]

instance charP_adjoinRoot : CharP (AdjoinRoot Q) 2 :=
  charP_of_injective_algebraMap (algebraMap F (AdjoinRoot Q)).injective 2

/-- No factor of the modulus has a degree less than that of the modulus. -/
theorem natDegree_of_dvd_modulus [Finite F] (hcard : Nat.card F = 2) (h : Q ∣ modulus F) :
    Q.natDegree = 128 := by
  have hi : Irreducible Q := Fact.out
  have hx := root_pow (AdjoinRoot.mk_eq_zero.mpr h)
  have hdvd : Q.natDegree ∣ 128 :=
    hi.natDegree_dvd_iff_dvd_X_pow_card_pow_sub_X.mpr
      ((dvd_pow_sub_iff hcard 128).mpr (pow_eq_self hx))
  have hndvd : ¬Q.natDegree ∣ 64 := fun h64 =>
    pow_ne_self hx ((dvd_pow_sub_iff hcard 64).mp
      (hi.natDegree_dvd_iff_dvd_X_pow_card_pow_sub_X.mp h64))
  have hpow : 128 = 2 ^ 7 ∧ 64 = 2 ^ 6 := by norm_num
  rw [hpow.1] at hdvd
  rw [hpow.2] at hndvd
  obtain ⟨k, hk, hdegree⟩ := (Nat.dvd_prime_pow Nat.prime_two).mp hdvd
  rcases Nat.lt_or_ge k 7 with hlt | hge
  · exact absurd (hdegree ▸ pow_dvd_pow 2 (Nat.le_of_lt_succ hlt)) hndvd
  · rw [hdegree, Nat.le_antisymm hk hge, hpow.1]

/-- Blocks are polynomials of a degree too small to vanish at the root. -/
theorem eval_root_injective [Finite F] (hcard : Nat.card F = 2) (h : Q ∣ modulus F) :
    Function.Injective (eval (AdjoinRoot.mk Q X)) := by
  intro a b heq
  rw [← map_polynomial, ← map_polynomial, AdjoinRoot.mk_eq_mk] at heq
  exact polynomial_injective (eq_of_dvd_sub (Fact.out : Irreducible Q).ne_zero
    (natDegree_of_dvd_modulus hcard h) (degree_polynomial_lt a) (degree_polynomial_lt b) heq)

end

/-- A factor other than zero can be cancelled. -/
theorem mul_right_cancel {a b h : Block} (hh : h ≠ 0) (heq : mul a h = mul b h) : a = b := by
  have hpos : 0 < (modulus (ZMod 2)).natDegree := by
    rw [natDegree_modulus]
    norm_num
  have hnonunit : ¬IsUnit (modulus (ZMod 2)) := not_isUnit_of_natDegree_pos_of_isReduced _ hpos
  have hne : modulus (ZMod 2) ≠ 0 := ne_zero_of_natDegree_gt hpos
  obtain ⟨Q, hi, hdvd⟩ := WfDvdMonoid.exists_irreducible_factor hnonunit hne
  have : Fact (Irreducible Q) := ⟨hi⟩
  have hx := root_pow (AdjoinRoot.mk_eq_zero.mpr hdvd)
  have hinjective := eval_root_injective (Nat.card_zmod 2) hdvd
  have hfactor : eval (AdjoinRoot.mk Q X) h ≠ 0 := by
    rw [← eval_zero (AdjoinRoot.mk Q X)]
    exact hinjective.ne hh
  have hproduct := congrArg (eval (AdjoinRoot.mk Q X)) heq
  rw [eval_mul hx, eval_mul hx] at hproduct
  exact hinjective (mul_right_cancel₀ hfactor hproduct)

end Rendezvous.Crypto.Gcm
