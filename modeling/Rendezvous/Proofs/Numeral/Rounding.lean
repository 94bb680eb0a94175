import Mathlib.Algebra.Order.Field.Power
import Mathlib.Data.Rat.Cast.Order
import Mathlib.Tactic.FieldSimp
import Mathlib.Tactic.Linarith
import Mathlib.Tactic.NormNum
import Mathlib.Tactic.Positivity
import Mathlib.Tactic.Ring
import Rendezvous.Numeral.Binary64

namespace Rendezvous.Numeral

theorem Positional.weight_pos {b : Nat} (hb : 0 < b) (i : Nat) : 0 < weight b i := Nat.pow_pos hb

theorem Positional.cast_weight (b i : Nat) : (weight b i : ℚ) = (b : ℚ) ^ i := Nat.cast_pow b i

/-- A power is kept as a ratio of which one part is one. -/
theorem Positional.weight_div_weight (b : Nat) (k : Int) :
    (weight b k.toNat : ℚ) / weight b (-k).toNat = (b : ℚ) ^ k := by
  rw [cast_weight, cast_weight]
  cases k with
  | ofNat n =>
    rw [Int.ofNat_eq_natCast, Int.toNat_natCast, Int.toNat_neg_natCast, pow_zero, div_one,
      zpow_natCast]
  | negSucc n =>
    rw [Int.toNat_negSucc, Int.neg_negSucc, Int.toNat_natCast, pow_zero, one_div, zpow_negSucc]

theorem Positional.two_weight (k : Int) :
    (weight 2 k.toNat : ℚ) / weight 2 (-k).toNat = 2 ^ k :=
  weight_div_weight 2 k

theorem Positional.ten_weight (k : Int) :
    (weight 10 k.toNat : ℚ) / weight 10 (-k).toNat = 10 ^ k :=
  weight_div_weight 10 k

/-- How near a whole number is to a ratio, without quotients. -/
theorem near_of_bounds {num den m : Nat} (hden : 0 < den) (hlow : 2 * num ≤ 2 * (m * den) + den)
    (hhigh : 2 * (m * den) ≤ 2 * num + den) : |(m : ℚ) - num / den| ≤ 1 / 2 := by
  have hpos : (0 : ℚ) < den := Nat.cast_pos.mpr hden
  have hlow' : 2 * (num : ℚ) ≤ 2 * (m * den) + den := by exact_mod_cast hlow
  have hhigh' : 2 * ((m : ℚ) * den) ≤ 2 * num + den := by exact_mod_cast hhigh
  rw [abs_le]
  constructor
  · rw [neg_le_sub_iff_le_add, div_le_iff₀ hpos]
    linarith
  · rw [sub_le_iff_le_add, ← sub_le_iff_le_add', le_div_iff₀ hpos]
    linarith

theorem two_zpow_pos (e : Int) : (0 : ℚ) < 2 ^ e := zpow_pos two_pos e

theorem two_zpow_add (e : Int) (n : Nat) : (2 : ℚ) ^ (e + n) = 2 ^ n * 2 ^ e := by
  rw [zpow_add₀ two_ne_zero, zpow_natCast, mul_comm]

namespace Binary64.Magnitude

def value (x : Magnitude) : ℚ := x.mantissa * 2 ^ x.exponent

theorem ratio_pos (x : Magnitude) : 0 < x.ratio.2 := Positional.weight_pos (by decide) _

theorem ratio_value (x : Magnitude) : (x.ratio.1 : ℚ) / x.ratio.2 = x.value := by
  rw [value, ← Positional.two_weight, ← mul_div_assoc, ratio, Nat.cast_mul]

theorem roundDiv_near (num : Nat) {den : Nat} (hden : 0 < den) :
    |(roundDiv num den : ℚ) - num / den| ≤ 1 / 2 := by
  have hsplit : den * (num / den) + num % den = num := Nat.div_add_mod num den
  have hmod : num % den < den := Nat.mod_lt num hden
  have hbounds : 2 * num ≤ 2 * (roundDiv num den * den) + den ∧
      2 * (roundDiv num den * den) ≤ 2 * num + den := by
    rw [roundDiv]
    generalize num / den = q at *
    rw [Nat.mul_comm] at hsplit
    split
    · omega
    · rw [Nat.add_mul, Nat.one_mul]
      omega
  exact near_of_bounds hden hbounds.1 hbounds.2

theorem weight_le_iff {num den : Nat} (hden : 0 < den) (k : Int) :
    den * Positional.weight 2 k.toNat ≤ num * Positional.weight 2 (-k).toNat ↔
      (2 : ℚ) ^ k ≤ num / den := by
  have hpos : (0 : ℚ) < den := Nat.cast_pos.mpr hden
  have hweight : (0 : ℚ) < Positional.weight 2 (-k).toNat :=
    Nat.cast_pos.mpr (Positional.weight_pos (by decide) _)
  rw [← Positional.two_weight, div_le_div_iff₀ hweight hpos, mul_comm, ← Nat.cast_mul,
    ← Nat.cast_mul, Nat.cast_le]

/-- The integral parts of the logarithms of numerator and denominator leave two candidates. -/
theorem log2_sub_log2 {num den : Nat} (hnum : 0 < num) (hden : 0 < den) :
    (2 : ℚ) ^ ((num.log2 : Int) - den.log2 - 1) ≤ num / den ∧
      (num : ℚ) / den < 2 ^ ((num.log2 : Int) - den.log2 + 1) := by
  have hpos : (0 : ℚ) < den := Nat.cast_pos.mpr hden
  have hnumLow : (2 : ℚ) ^ num.log2 ≤ num := by
    exact_mod_cast Nat.log2_self_le (Nat.ne_of_gt hnum)
  have hnumHigh : (num : ℚ) < 2 ^ (num.log2 + 1) := by exact_mod_cast Nat.lt_log2_self
  have hdenLow : (2 : ℚ) ^ den.log2 ≤ den := by
    exact_mod_cast Nat.log2_self_le (Nat.ne_of_gt hden)
  have hdenHigh : (den : ℚ) < 2 ^ (den.log2 + 1) := by exact_mod_cast Nat.lt_log2_self
  constructor
  · rw [le_div_iff₀ hpos]
    calc (2 : ℚ) ^ ((num.log2 : Int) - den.log2 - 1) * den
        ≤ 2 ^ ((num.log2 : Int) - den.log2 - 1) * 2 ^ (den.log2 + 1) :=
          mul_le_mul_of_nonneg_left hdenHigh.le (two_zpow_pos _).le
      _ = 2 ^ num.log2 := by
          rw [← zpow_natCast, ← zpow_add₀ two_ne_zero, ← zpow_natCast]
          congr 1
          omega
      _ ≤ num := hnumLow
  · rw [div_lt_iff₀ hpos]
    calc (num : ℚ) < 2 ^ (num.log2 + 1) := hnumHigh
      _ = 2 ^ ((num.log2 : Int) - den.log2 + 1) * 2 ^ den.log2 := by
          rw [← zpow_natCast, ← zpow_natCast, ← zpow_add₀ two_ne_zero]
          congr 1
          omega
      _ ≤ 2 ^ ((num.log2 : Int) - den.log2 + 1) * den :=
          mul_le_mul_of_nonneg_left hdenLow (two_zpow_pos _).le

theorem floorLog2_spec {num den : Nat} (hnum : 0 < num) (hden : 0 < den) :
    (2 : ℚ) ^ floorLog2 num den ≤ num / den ∧ (num : ℚ) / den < 2 ^ (floorLog2 num den + 1) := by
  obtain ⟨hlow, hhigh⟩ := log2_sub_log2 hnum hden
  rw [floorLog2]
  split
  · next h => exact ⟨(weight_le_iff hden _).mp h, hhigh⟩
  · next h =>
    rw [sub_add_cancel]
    exact ⟨hlow, not_le.mp (mt (weight_le_iff hden _).mpr h)⟩

/-- That a ratio lies within half a unit of a number of units `2 ^ e`, of which it has 53 binary
digits unless the unit is the least one. -/
structure Rounds (q : ℚ) (m : Nat) (e : Int) : Prop where
  least : -1074 ≤ e
  near : |(m : ℚ) - q / 2 ^ e| ≤ 1 / 2
  lt : q < 2 ^ (e + 53)
  le : 2 ^ (e + 52) ≤ q ∨ e = -1074

/-- A number of units, where 2^53 are half as many of twice the size. -/
def ofUnits (m : Nat) (e : Int) : Magnitude :=
  if m = 0x20000000000000 then ⟨0x10000000000000, e + 1⟩ else ⟨m, e⟩

theorem exists_rounds {num den : Nat} (hnum : 0 < num) (hden : 0 < den) :
    ∃ m e, Rounds ((num : ℚ) / den) m e ∧
      nearest? num den = if (ofUnits m e).exponent ≤ 971 then some (ofUnits m e) else none := by
  obtain ⟨hlow, hhigh⟩ := floorLog2_spec hnum hden
  generalize hk : floorLog2 num den = k at hlow hhigh
  generalize he : max (k - 52) (-1074) = e
  have hunits : ((num * Positional.weight 2 (-e).toNat : Nat) : ℚ) /
      (den * Positional.weight 2 e.toNat : Nat) = num / den / 2 ^ e := by
    rw [← Positional.two_weight, Nat.cast_mul, Nat.cast_mul, div_div_div_eq]
  have hnear := roundDiv_near (num * Positional.weight 2 (-e).toNat)
    (Nat.mul_pos hden (Positional.weight_pos Nat.two_pos e.toNat))
  rw [hunits] at hnear
  refine ⟨_, e, ⟨by omega, hnear, ?_, ?_⟩, ?_⟩
  · exact hhigh.trans_le (zpow_le_zpow_right₀ one_le_two (by omega))
  · rcases le_total (k - 52) (-1074) with h | h
    · exact .inr (by omega)
    · exact .inl (hlow.trans' (zpow_le_zpow_right₀ one_le_two (by omega)))
  · rw [nearest?, if_neg (Nat.ne_of_gt hnum), hk, he]
    rfl

namespace Rounds

variable {q : ℚ} {m : Nat} {e : Int}

theorem bounds (h : Rounds q m e) : (m - 1 / 2) * 2 ^ e ≤ q ∧ q ≤ (m + 1 / 2) * 2 ^ e := by
  have hpos := two_zpow_pos e
  obtain ⟨hlow, hhigh⟩ := abs_le.mp h.near
  constructor
  · rw [← le_div_iff₀ hpos]
    linarith
  · rw [← div_le_iff₀ hpos]
    linarith

theorem mantissa_le (h : Rounds q m e) : m ≤ 2 ^ 53 := by
  have hlt := h.bounds.1.trans_lt h.lt
  rw [show e + 53 = e + (53 : Nat) from rfl, two_zpow_add] at hlt
  have hm : (m : ℚ) < (2 ^ 53 : Nat) + 1 := by
    have := lt_of_mul_lt_mul_right hlt (two_zpow_pos e).le
    push_cast
    linarith
  exact Nat.lt_succ_iff.mp (by exact_mod_cast hm)

theorem le_mantissa (h : Rounds q m e) (hle : 2 ^ (e + 52) ≤ q) : 2 ^ 52 ≤ m := by
  have hge := hle.trans h.bounds.2
  rw [show e + 52 = e + (52 : Nat) from rfl, two_zpow_add] at hge
  have hm : ((2 ^ 52 : Nat) : ℚ) < m + 1 := by
    have := le_of_mul_le_mul_right hge (two_zpow_pos e)
    push_cast
    linarith
  exact Nat.lt_succ_iff.mp (by exact_mod_cast hm)

end Rounds

theorem value_ofUnits (m : Nat) (e : Int) : (ofUnits m e).value = m * 2 ^ e := by
  rw [ofUnits]
  split
  · next h =>
    rw [h, value, zpow_add_one₀ two_ne_zero]
    norm_num
    ring
  · rfl

/-- That a number is one of those with 53 binary digits and an exponent of 11. -/
structure IsDouble (x : Magnitude) : Prop where
  mantissa_lt : x.mantissa < 2 ^ 53
  least : -1074 ≤ x.exponent
  greatest : x.exponent ≤ 971
  tight : 2 ^ 52 ≤ x.mantissa ∨ x.exponent = -1074

theorem exists_of_nearest? {num den : Nat} (hnum : 0 < num) (hden : 0 < den) {x : Magnitude}
    (h : nearest? num den = some x) :
    ∃ m e, Rounds ((num : ℚ) / den) m e ∧ x.value = m * 2 ^ e ∧ e ≤ x.exponent ∧ x.IsDouble := by
  obtain ⟨m, e, hrounds, hnearest⟩ := exists_rounds hnum hden
  rw [hnearest] at h
  split at h
  · next hmax =>
    cases h
    refine ⟨m, e, hrounds, value_ofUnits m e, ?_⟩
    have hm := hrounds.mantissa_le
    have hleast := hrounds.least
    rw [ofUnits] at hmax ⊢
    split
    · next hfull =>
      rw [if_pos hfull] at hmax
      exact ⟨(lt_add_one e).le, ⟨by norm_num, by simp only; omega, hmax, .inl (le_refl _)⟩⟩
    · next hfull =>
      rw [if_neg hfull] at hmax
      refine ⟨le_refl _, ⟨by simp only; omega, hleast, hmax, ?_⟩⟩
      exact hrounds.le.imp_left hrounds.le_mantissa
  · cases h

/-- The largest numbers have no neighbour above them: a ratio is too large from the middle between
the largest one and the one that would follow. -/
def limit : ℚ := (2 ^ 54 - 1) * 2 ^ (970 : Int)

theorem limit_eq : limit = (2 ^ 53 - 1 / 2) * 2 ^ (971 : Int) := by
  rw [limit, show (971 : Int) = 970 + 1 from rfl, zpow_add_one₀ two_ne_zero]
  ring

theorem limit_le : limit ≤ 2 ^ (1024 : Int) := by
  rw [limit_eq, show (1024 : Int) = 971 + (53 : Nat) from rfl, two_zpow_add]
  exact mul_le_mul_of_nonneg_right (by norm_num) (two_zpow_pos _).le

theorem isSome_nearest? {num den : Nat} (hnum : 0 < num) (hden : 0 < den)
    (h : (num : ℚ) / den < limit) : (nearest? num den).isSome := by
  obtain ⟨m, e, hrounds, hnearest⟩ := exists_rounds hnum hden
  rw [hnearest]
  split
  · rfl
  · next hmax =>
    rw [ofUnits] at hmax
    split at hmax
    · next hfull =>
      have he : (971 : Int) ≤ e := by simp only at hmax; omega
      have hlow := hrounds.bounds.1.trans_lt h
      rw [hfull, limit_eq] at hlow
      refine absurd hlow (not_lt.mpr ?_)
      norm_num only
      exact mul_le_mul_of_nonneg_left (zpow_le_zpow_right₀ one_le_two he) (by norm_num)
    · have he : (972 : Int) ≤ e := by simp only at hmax; omega
      rcases hrounds.le with hlow | hleast
      · have hpower : (2 : ℚ) ^ (1024 : Int) ≤ 2 ^ (e + 52) :=
          zpow_le_zpow_right₀ one_le_two (by omega)
        exact absurd (h.trans_le (limit_le.trans (hpower.trans hlow))) (lt_irrefl _)
      · omega

/-- The unit that a ratio near a number is measured in: that of the number, or half of it just below
a power of two. -/
theorem Rounds.unit_eq {q : ℚ} {m : Nat} {e : Int} (h : Rounds q m e) {x : Magnitude}
    (hx : x.IsDouble) (habove : q < x.value + 2 ^ x.exponent / 2)
    (hbelow : x.value - 2 ^ x.exponent / 2 < q)
    (hedge : x.mantissa = 2 ^ 52 → x.value - 2 ^ x.exponent / 4 < q) :
    e = x.exponent ∨ e + 1 = x.exponent ∧ x.mantissa = 2 ^ 52 := by
  have hunit := two_zpow_pos x.exponent
  have hlt : (x.mantissa : ℚ) + 1 ≤ 2 ^ 53 := by exact_mod_cast hx.mantissa_lt
  rw [value] at habove hbelow hedge
  rcases lt_trichotomy e x.exponent with hlower | rfl | hhigher
  · have hq : q < 2 ^ 52 * 2 ^ x.exponent := by
      rw [← two_zpow_add]
      exact h.lt.trans_le (zpow_le_zpow_right₀ one_le_two (by omega))
    have hfull : 2 ^ 52 ≤ x.mantissa := hx.tight.resolve_right (by have := h.least; omega)
    have hmantissa : x.mantissa = 2 ^ 52 := by
      refine le_antisymm (Nat.lt_succ_iff.mp ?_) hfull
      have hm : (x.mantissa : ℚ) < (2 ^ 52 : Nat) + 1 := by
        have : ((x.mantissa : ℚ) - 1 / 2) * 2 ^ x.exponent < 2 ^ 52 * 2 ^ x.exponent := by linarith
        have := lt_of_mul_lt_mul_right this hunit.le
        push_cast
        linarith
      exact_mod_cast hm
    refine .inr ⟨?_, hmantissa⟩
    have hq' : (2 : ℚ) ^ (x.exponent + 51) < 2 ^ (e + 53) := by
      refine lt_trans ?_ h.lt
      have hlow := hedge hmantissa
      rw [hmantissa] at hlow
      rw [show x.exponent + 51 = x.exponent + (51 : Nat) from rfl, two_zpow_add]
      push_cast at hlow
      linarith
    have := (zpow_lt_zpow_iff_right₀ one_lt_two).mp hq'
    omega
  · exact .inl rfl
  · exfalso
    have hq : 2 ^ 53 * 2 ^ x.exponent ≤ q := by
      rw [← two_zpow_add]
      refine (zpow_le_zpow_right₀ one_le_two ?_).trans (h.le.resolve_right ?_)
      · push_cast
        omega
      · have := hx.least
        omega
    have := mul_le_mul_of_nonneg_right hlt hunit.le
    linarith

/-- A ratio within half a unit of a number is rounded to it, and within a quarter where the numbers
below it lie closer together. -/
theorem nearest?_eq_some {num den : Nat} (hnum : 0 < num) (hden : 0 < den) {x : Magnitude}
    (hx : x.IsDouble) (habove : (num : ℚ) / den < x.value + 2 ^ x.exponent / 2)
    (hbelow : x.value - 2 ^ x.exponent / 2 < num / den)
    (hedge : x.mantissa = 2 ^ 52 → x.value - 2 ^ x.exponent / 4 < num / den) :
    nearest? num den = some x := by
  obtain ⟨m, e, hrounds, hnearest⟩ := exists_rounds hnum hden
  obtain ⟨hlow, hhigh⟩ := hrounds.bounds
  suffices hunits : ofUnits m e = x by rw [hnearest, hunits, if_pos hx.greatest]
  rcases hrounds.unit_eq hx habove hbelow hedge with rfl | ⟨he, hmantissa⟩
  · have hunit := two_zpow_pos x.exponent
    rw [value] at habove hbelow
    have hm : m < x.mantissa + 1 := by
      have : (m : ℚ) - 1 / 2 < x.mantissa + 1 / 2 :=
        lt_of_mul_lt_mul_right (b := (m : ℚ) - 1 / 2) (by linarith) hunit.le
      exact_mod_cast (by linarith : (m : ℚ) < x.mantissa + 1)
    have hm' : x.mantissa < m + 1 := by
      have : (x.mantissa : ℚ) - 1 / 2 < m + 1 / 2 :=
        lt_of_mul_lt_mul_right (b := (x.mantissa : ℚ) - 1 / 2) (by linarith) hunit.le
      exact_mod_cast (by linarith : (x.mantissa : ℚ) < m + 1)
    have hlt := hx.mantissa_lt
    rw [ofUnits, if_neg (by omega), show m = x.mantissa by omega]
  · have hunit := two_zpow_pos e
    have hlow' := hedge hmantissa
    rw [value, hmantissa, ← he, zpow_add_one₀ two_ne_zero] at hlow'
    have hm : 2 ^ 53 < m + 1 := by
      have : ((2 : ℚ) ^ 53 - 1 / 2) < m + 1 / 2 := by
        refine lt_of_mul_lt_mul_right ?_ hunit.le
        push_cast at hlow'
        linarith
      exact_mod_cast (by linarith : (2 : ℚ) ^ 53 < m + 1)
    have hle := hrounds.mantissa_le
    rw [ofUnits, if_pos (by omega), he]
    cases x
    simp only at hmantissa
    rw [hmantissa]
    rfl

variable {num den : Nat} {x : Magnitude}

theorem nearest?_near (hnum : 0 < num) (hden : 0 < den) (h : nearest? num den = some x) :
    |x.value - num / den| ≤ 2 ^ x.exponent / 2 := by
  obtain ⟨m, e, hrounds, hvalue, he, -⟩ := exists_of_nearest? hnum hden h
  obtain ⟨hlow, hhigh⟩ := hrounds.bounds
  have hunit : (2 : ℚ) ^ e ≤ 2 ^ x.exponent := zpow_le_zpow_right₀ one_le_two he
  rw [hvalue, abs_le]
  constructor <;> linarith

theorem nearest?_close (hnum : 0 < num) (hden : 0 < den) (hone : (1 : ℚ) ≤ num / den)
    (h : nearest? num den = some x) : |x.value - num / den| * 2 ^ 53 ≤ num / den := by
  obtain ⟨m, e, hrounds, hvalue, -⟩ := exists_of_nearest? hnum hden h
  obtain ⟨hlow, hhigh⟩ := hrounds.bounds
  have hfull : (2 : ℚ) ^ 52 * 2 ^ e ≤ num / den := by
    rw [← two_zpow_add]
    refine hrounds.le.resolve_right fun hleast => ?_
    have hlt := hone.trans_lt hrounds.lt
    rw [hleast] at hlt
    exact absurd hlt (not_lt.mpr (zpow_le_one_of_nonpos₀ one_le_two (by norm_num)))
  have hdist : |x.value - num / den| ≤ 2 ^ e / 2 := by
    rw [hvalue, abs_le]
    constructor <;> linarith
  linarith

theorem value_le_of_lt (hnum : 0 < num) (hden : 0 < den) {k : Int} (hk : -1021 ≤ k)
    (hlt : (num : ℚ) / den < 2 ^ k) (h : nearest? num den = some x) : x.value ≤ 2 ^ k := by
  obtain ⟨m, e, hrounds, hvalue, -⟩ := exists_of_nearest? hnum hden h
  have hm : (m : ℚ) ≤ 2 ^ 53 := by exact_mod_cast hrounds.mantissa_le
  have he : e + 53 ≤ k := by
    rcases hrounds.le with hle | hleast
    · have := (zpow_lt_zpow_iff_right₀ one_lt_two).mp (hle.trans_lt hlt)
      omega
    · omega
  calc x.value = m * 2 ^ e := hvalue
    _ ≤ 2 ^ 53 * 2 ^ e := mul_le_mul_of_nonneg_right hm (two_zpow_pos e).le
    _ = 2 ^ (e + 53) := (two_zpow_add e 53).symm
    _ ≤ 2 ^ k := zpow_le_zpow_right₀ one_le_two he

end Binary64.Magnitude

end Rendezvous.Numeral
