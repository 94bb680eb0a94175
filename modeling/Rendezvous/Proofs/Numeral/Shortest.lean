import Rendezvous.Numeral.Shortest
import Rendezvous.Proofs.Numeral.Digits
import Rendezvous.Proofs.Numeral.Scaling

namespace Rendezvous.Numeral

namespace Shortest

open Binary64 Binary64.Magnitude

theorem ten_zpow_pos (e : Int) : (0 : ℚ) < 10 ^ e := zpow_pos (by norm_num) e

def Decimal.value (d : Decimal) : ℚ := d.digits * 10 ^ d.exponent

theorem Decimal.ratio_pos (d : Decimal) : 0 < d.ratio.2 := Positional.weight_pos (by decide) _

theorem Decimal.ratio_value (d : Decimal) : (d.ratio.1 : ℚ) / d.ratio.2 = d.value := by
  rw [value, ← Positional.ten_weight, ← mul_div_assoc, ratio, Nat.cast_mul]

theorem Decimal.ratio_fst_pos {d : Decimal} (h : 0 < d.digits) : 0 < d.ratio.1 :=
  Nat.mul_pos h (Positional.weight_pos (by decide) _)

theorem exists_length_digits {n : Nat} (h : 0 < n) :
    ∃ l, (Positional.digits 10 n).length = l + 1 ∧ 10 ^ l ≤ n ∧ n < 10 ^ (l + 1) := by
  have hlow := Positional.pow_length_digits_le (b := 10) (by decide) h
  have hhigh := Positional.lt_pow_length_digits (b := 10) (by decide) n
  have hlength : 0 < (Positional.digits 10 n).length :=
    List.length_pos_iff.mpr (Positional.digits_ne_nil 10 _)
  obtain ⟨l, hl⟩ := Nat.exists_eq_add_one_of_ne_zero (Nat.ne_of_gt hlength)
  rw [hl] at hlow hhigh
  exact ⟨l, hl, hlow, hhigh⟩

theorem pred_ceil_bounds {num den : Nat} (hnum : 0 < num) (h : num < den) :
    0 < (den + num - 1) / num - 1 ∧ ((den + num - 1) / num - 1) * num < den ∧
      den ≤ ((den + num - 1) / num - 1 + 1) * num := by
  have hlow := Nat.div_mul_le_self (den + num - 1) num
  have hhigh := Nat.lt_mul_div_succ (den + num - 1) hnum
  have htwo : 2 ≤ (den + num - 1) / num := (Nat.le_div_iff_mul_le hnum).mpr (by omega)
  generalize (den + num - 1) / num = c at *
  obtain ⟨t, rfl⟩ := Nat.exists_eq_add_of_le' htwo
  rw [Nat.mul_comm] at hhigh
  simp only [Nat.add_mul, Nat.add_succ_sub_one] at *
  omega

theorem floorLog10_spec {num den : Nat} (hnum : 0 < num) (hden : 0 < den) :
    (10 : ℚ) ^ floorLog10 num den ≤ num / den ∧
      (num : ℚ) / den < 10 ^ (floorLog10 num den + 1) := by
  have hpos : (0 : ℚ) < den := Nat.cast_pos.mpr hden
  rw [floorLog10]
  split
  · next h =>
    obtain ⟨l, hlength, hlow, hhigh⟩ := exists_length_digits (Nat.div_pos h hden)
    rw [Nat.le_div_iff_mul_le hden] at hlow
    rw [Nat.div_lt_iff_lt_mul hden] at hhigh
    rw [hlength]
    push_cast
    rw [add_sub_cancel_right, zpow_natCast, ← Nat.cast_succ, zpow_natCast, le_div_iff₀ hpos,
      div_lt_iff₀ hpos]
    exact ⟨by exact_mod_cast hlow, by exact_mod_cast hhigh⟩
  · next h =>
    obtain ⟨hpositive, hbelow, habove⟩ := pred_ceil_bounds hnum (Nat.not_le.mp h)
    obtain ⟨l, hlength, hlow, hhigh⟩ := exists_length_digits hpositive
    have hden : den ≤ 10 ^ (l + 1) * num := habove.trans (Nat.mul_le_mul_right num hhigh)
    have hnum' : 10 ^ l * num < den := (Nat.mul_le_mul_right num hlow).trans_lt hbelow
    have hexponent : -((l + 1 : Nat) : Int) + 1 = -(l : Int) := by omega
    rw [hlength, hexponent, zpow_neg, zpow_natCast, zpow_neg, zpow_natCast, le_div_iff₀ hpos,
      div_lt_iff₀ hpos, ← div_eq_inv_mul, ← div_eq_inv_mul, div_le_iff₀ (by positivity),
      lt_div_iff₀ (by positivity), mul_comm, mul_comm (num : ℚ) (10 ^ l)]
    exact ⟨by exact_mod_cast hden, by exact_mod_cast hnum'⟩

/-- A decimal of `n` digits is a number of units of this power of ten. -/
def unitExponent (x : Magnitude) (n : Nat) : Int := floorLog10 x.ratio.1 x.ratio.2 - n + 1

variable {x : Magnitude}

/-- In its units, a number has `n` digits before the point. -/
theorem unitExponent_spec (hx : x.mantissa ≠ 0) (n : Nat) :
    (10 : ℚ) ^ (unitExponent x n + n - 1) ≤ x.value ∧
      x.value < 10 ^ (unitExponent x n + n) := by
  have hspec := floorLog10_spec (ratio_fst_pos hx) (Magnitude.ratio_pos x)
  rw [Magnitude.ratio_value] at hspec
  rw [unitExponent, show floorLog10 x.ratio.1 x.ratio.2 - n + 1 + n - 1 =
    floorLog10 x.ratio.1 x.ratio.2 by ring, show floorLog10 x.ratio.1 x.ratio.2 - n + 1 + n =
    floorLog10 x.ratio.1 x.ratio.2 + 1 by ring]
  exact hspec

/-- How many of its units a number is, as a fraction. -/
def units (x : Magnitude) (n : Nat) : Nat × Nat :=
  (x.ratio.1 * Positional.weight 10 (-(unitExponent x n)).toNat,
    x.ratio.2 * Positional.weight 10 (unitExponent x n).toNat)

section

variable {n : Nat}

theorem units_pos : 0 < (units x n).2 :=
  Nat.mul_pos (Magnitude.ratio_pos x) (Positional.weight_pos (by decide) _)

theorem units_value :
    ((units x n).1 : ℚ) / (units x n).2 = x.value / 10 ^ unitExponent x n := by
  rw [units, ← Positional.ten_weight, Nat.cast_mul, Nat.cast_mul, ← Magnitude.ratio_value,
    div_div_div_eq]

/-- The whole units have `n` digits, and so many do as well if it is one more, but for a carry. -/
theorem units_bounds (hx : x.mantissa ≠ 0) (hn : 0 < n) :
    0 < (units x n).1 / (units x n).2 ∧ (units x n).1 / (units x n).2 + 1 ≤ 10 ^ n := by
  obtain ⟨hlow, hhigh⟩ := unitExponent_spec hx n
  have hunit := ten_zpow_pos (unitExponent x n)
  have hpos : (0 : ℚ) < (units x n).2 := Nat.cast_pos.mpr units_pos
  constructor
  · refine Nat.div_pos ?_ units_pos
    have hone : (1 : ℚ) ≤ (units x n).1 / (units x n).2 := by
      rw [units_value, le_div_iff₀ hunit, one_mul]
      exact (zpow_le_zpow_right₀ (by norm_num) (by omega)).trans hlow
    rw [one_le_div hpos] at hone
    exact_mod_cast hone
  · refine (Nat.div_lt_iff_lt_mul units_pos).mpr ?_
    have hlt : ((units x n).1 : ℚ) / (units x n).2 < 10 ^ n := by
      rw [units_value, div_lt_iff₀ hunit, ← zpow_natCast, ← zpow_add₀ (by norm_num), add_comm]
      exact hhigh
    rw [div_lt_iff₀ hpos] at hlt
    exact_mod_cast hlt

/-- A decimal lies as near as its digits do, counted in the units. -/
theorem near_of_units {b : Nat} (hlow : 2 * (units x n).1 ≤ 2 * (b * (units x n).2) + (units x n).2)
    (hhigh : 2 * (b * (units x n).2) ≤ 2 * (units x n).1 + (units x n).2) :
    |(⟨b, unitExponent x n⟩ : Decimal).value - x.value| ≤ 10 ^ unitExponent x n / 2 := by
  have hunit := ten_zpow_pos (unitExponent x n)
  have hdistance : (⟨b, unitExponent x n⟩ : Decimal).value - x.value =
      (b - (units x n).1 / (units x n).2) * 10 ^ unitExponent x n := by
    rw [Decimal.value, units_value, sub_mul, div_mul_cancel₀ _ hunit.ne']
  have hhalf := near_of_bounds units_pos hlow hhigh
  rw [hdistance, abs_mul, abs_of_pos hunit]
  linarith [mul_le_mul_of_nonneg_right hhalf hunit.le]

/-- The two decimals of `n` digits next to a number, the nearer one first. -/
theorem exists_candidates (hx : x.mantissa ≠ 0) (hn : 0 < n) :
    ∃ first second : Decimal,
      (∀ d ∈ [first, second], 0 < d.digits ∧ d.digits ≤ 10 ^ n) ∧
      |first.value - x.value| ≤ 10 ^ unitExponent x n / 2 ∧
      withDigits? x n = if first.readsAs x then some first
        else if second.readsAs x then some second else none := by
  have hcandidates : withDigits? x n =
      let num := (units x n).1
      let den := (units x n).2
      let below : Decimal := ⟨num / den, unitExponent x n⟩
      let above : Decimal := ⟨num / den + 1, unitExponent x n⟩
      let twice := 2 * (num % den)
      let belowFirst := twice < den || (twice == den && below.digits % 2 == 0)
      let pair := if belowFirst then (below, above) else (above, below)
      if pair.1.readsAs x then some pair.1 else if pair.2.readsAs x then some pair.2 else none :=
    rfl
  obtain ⟨hbelow, habove⟩ := units_bounds hx hn
  have hnear (b : Nat) := near_of_units (x := x) (n := n) (b := b)
  have hpos := units_pos (x := x) (n := n)
  generalize (units x n).1 = num, (units x n).2 = den at *
  have hsplit : num / den * den + num % den = num := Nat.div_add_mod' num den
  have hmod : num % den < den := Nat.mod_lt num hpos
  have hdigits (b : Nat) (hb : b = num / den ∨ b = num / den + 1) : 0 < b ∧ b ≤ 10 ^ n := by
    rcases hb with rfl | rfl
    · exact ⟨hbelow, Nat.le_of_succ_le habove⟩
    · exact ⟨Nat.succ_pos _, habove⟩
  rw [hcandidates]
  by_cases hfirst : (2 * (num % den) < den || (2 * (num % den) == den && num / den % 2 == 0)) = true
  · refine ⟨⟨num / den, unitExponent x n⟩, ⟨num / den + 1, unitExponent x n⟩, ?_, ?_, ?_⟩
    · simp only [List.mem_cons, List.not_mem_nil, or_false]
      rintro d (rfl | rfl)
      · exact hdigits _ (.inl rfl)
      · exact hdigits _ (.inr rfl)
    · have : 2 * (num % den) ≤ den := by
        simp only [Bool.or_eq_true, decide_eq_true_eq, Bool.and_eq_true, beq_iff_eq] at hfirst
        omega
      exact hnear _ (by omega) (by omega)
    · simp only [hfirst, if_true]
  · refine ⟨⟨num / den + 1, unitExponent x n⟩, ⟨num / den, unitExponent x n⟩, ?_, ?_, ?_⟩
    · simp only [List.mem_cons, List.not_mem_nil, or_false]
      rintro d (rfl | rfl)
      · exact hdigits _ (.inr rfl)
      · exact hdigits _ (.inl rfl)
    · have : den ≤ 2 * (num % den) := by
        simp only [Bool.or_eq_true, decide_eq_true_eq, not_or] at hfirst
        omega
      refine hnear _ ?_ ?_ <;> rw [Nat.add_mul, Nat.one_mul] <;> omega
    · simp only [hfirst]
      rfl

end

/-- A decimal of seventeen digits is near enough to be read back. -/
theorem readsAs_of_near (hdouble : x.IsDouble) (hx : x.mantissa ≠ 0) {d : Decimal}
    (hd : 0 < d.digits) (hnear : |d.value - x.value| ≤ 10 ^ unitExponent x 17 / 2) :
    d.readsAs x := by
  obtain ⟨hlow, -⟩ := unitExponent_spec hx 17
  have hunit := two_zpow_pos x.exponent
  -- the seventeenth digit counts for less than a unit in the last place, and for less than half of
  -- one if there the numbers below are closer
  have hdigit : (10 : ℚ) ^ unitExponent x 17 * 10 ^ 16 ≤ x.mantissa * 2 ^ x.exponent := by
    refine le_trans (le_of_eq ?_) hlow
    rw [← zpow_natCast, ← zpow_add₀ (by norm_num)]
    congr 1
    push_cast
    ring
  obtain ⟨hbelow, habove⟩ := abs_le.mp hnear
  have hmantissa : (x.mantissa : ℚ) ≤ 2 ^ 53 := by exact_mod_cast hdouble.mantissa_lt.le
  have hscale := mul_le_mul_of_nonneg_right hmantissa hunit.le
  rw [Decimal.readsAs, beq_iff_eq]
  refine nearest?_eq_some (d.ratio_fst_pos hd) d.ratio_pos hdouble ?_ ?_ fun hedge => ?_
  · rw [d.ratio_value]
    linarith
  · rw [d.ratio_value]
    linarith
  · rw [hedge] at hdigit
    push_cast at hdigit
    rw [d.ratio_value]
    linarith

/-- Seventeen digits suffice. -/
theorem isSome_withDigits? (hdouble : x.IsDouble) (hx : x.mantissa ≠ 0) :
    (withDigits? x 17).isSome := by
  obtain ⟨first, second, hdigits, hnear, hcandidates⟩ := exists_candidates hx (n := 17) (by decide)
  rw [hcandidates, if_pos (readsAs_of_near hdouble hx (hdigits first (by simp)).1 hnear)]
  rfl

theorem of_withDigits? (hx : x.mantissa ≠ 0) {n : Nat} (hn : 0 < n) {d : Decimal}
    (h : withDigits? x n = some d) : d.readsAs x ∧ 0 < d.digits ∧ d.digits ≤ 10 ^ n := by
  obtain ⟨first, second, hdigits, -, hcandidates⟩ := exists_candidates hx hn
  rw [hcandidates] at h
  split at h
  · next hreads =>
    cases h
    exact ⟨hreads, hdigits d (by simp)⟩
  · split at h
    · next hreads =>
      cases h
      exact ⟨hreads, hdigits d (by simp)⟩
    · cases h

/-- The shortest decimal of a number reads back as that number. -/
theorem ofMagnitude_readsAs (hdouble : x.IsDouble) (hx : x.mantissa ≠ 0) :
    (ofMagnitude x).readsAs x ∧ 0 < (ofMagnitude x).digits ∧ (ofMagnitude x).digits ≤ 10 ^ 17 := by
  have hsome : ((List.range 17).findSome? fun n => withDigits? x (n + 1)).isSome := by
    rw [List.findSome?_isSome_iff]
    exact ⟨16, by simp, isSome_withDigits? hdouble hx⟩
  obtain ⟨d, hd⟩ := Option.isSome_iff_exists.mp hsome
  obtain ⟨n, hn, hwith⟩ := List.exists_of_findSome?_eq_some hd
  obtain ⟨hreads, hpos, hle⟩ := of_withDigits? hx (Nat.succ_pos n) hwith
  rw [ofMagnitude, hd, Option.getD_some]
  refine ⟨hreads, hpos, hle.trans (Nat.pow_le_pow_right (by decide) ?_)⟩
  exact List.mem_range.mp hn

theorem Decimal.trim_spec (d : Decimal) :
    d.trim.value = d.value ∧ d.trim.digits ≤ d.digits ∧ (0 < d.digits → 0 < d.trim.digits) := by
  induction d using Decimal.trim.induct with
  | case1 d h =>
    rw [trim, dif_pos h]
    exact ⟨rfl, le_refl _, id⟩
  | case2 d h hten ih =>
    obtain ⟨hvalue, hle, hpos⟩ := ih
    rw [trim, dif_neg h, if_pos hten]
    have hdigits : (d.digits : ℚ) = (d.digits / 10 : Nat) * 10 := by
      exact_mod_cast (Nat.div_mul_cancel (Nat.dvd_of_mod_eq_zero hten)).symm
    refine ⟨hvalue.trans ?_, hle.trans (Nat.div_le_self _ _), fun hd => hpos ?_⟩
    · rw [Decimal.value, Decimal.value, hdigits, zpow_add_one₀ (by norm_num)]
      ring
    · exact Nat.div_pos (Nat.le_of_dvd hd (Nat.dvd_of_mod_eq_zero hten)) (by decide)
  | case3 d h hten =>
    rw [trim, dif_neg h, if_neg hten]
    exact ⟨rfl, le_refl _, id⟩

def shortest (x : Magnitude) : Decimal := (ofMagnitude x).trim

theorem shortest_spec (hdouble : x.IsDouble) (hx : x.mantissa ≠ 0) :
    |x.value - (shortest x).value| ≤ 2 ^ x.exponent / 2 ∧ 0 < (shortest x).digits ∧
      (shortest x).digits ≤ 10 ^ 17 := by
  obtain ⟨hreads, hpos, hle⟩ := ofMagnitude_readsAs hdouble hx
  obtain ⟨hvalue, hdigits, hkept⟩ := (ofMagnitude x).trim_spec
  rw [Decimal.readsAs, beq_iff_eq] at hreads
  have hnear := nearest?_near (Decimal.ratio_fst_pos hpos) (Decimal.ratio_pos _) hreads
  rw [Decimal.ratio_value, ← hvalue] at hnear
  exact ⟨hnear, hkept hpos, hdigits.trans hle⟩

theorem exists_nearest?_natural {n : Nat} (hn : 0 < n) (h : n ≤ 10 ^ 17) :
    ∃ y, nearest? n 1 = some y ∧ |y.value - n| * 2 ^ 53 ≤ n := by
  have hvalue : (n : ℚ) / (1 : Nat) = n := by rw [Nat.cast_one, div_one]
  have hlt : (n : ℚ) / (1 : Nat) < limit := by
    rw [hvalue]
    exact (by exact_mod_cast h : (n : ℚ) ≤ 10 ^ 17).trans_lt (ten_pow_lt_limit (by decide))
  obtain ⟨y, hy⟩ := Option.isSome_iff_exists.mp (isSome_nearest? hn Nat.one_pos hlt)
  have hone : (1 : ℚ) ≤ (n : ℚ) / (1 : Nat) := hvalue.symm ▸ Nat.one_le_cast.mpr hn
  have hclose := nearest?_close hn Nat.one_pos hone hy
  rw [hvalue] at hclose
  exact ⟨y, hy, hclose⟩

/-- The two largest numbers, to which the bound for all others does not apply. -/
theorem largest_table : ∀ m ∈ [0x1ffffffffffffe, 0x1fffffffffffff],
    ((nearest? (shortest ⟨m, 971⟩).digits 1).bind
      (·.scale? (shortest ⟨m, 971⟩).exponent)).isSome := by decide +kernel

theorem limit_lt_ten_pow : limit < 10 ^ 309 := by
  have htable : ((2 ^ 1024 : Nat) : ℚ) < (10 ^ 309 : Nat) := Nat.cast_lt.mpr (by decide +kernel)
  rw [Nat.cast_pow, Nat.cast_pow, Nat.cast_ofNat, Nat.cast_ofNat, ← zpow_natCast] at htable
  exact limit_le.trans_lt htable

/-- How far below the limit the decimals of all numbers but the two largest ones stay. -/
theorem value_shortest_le (hdouble : x.IsDouble) (hx : x.mantissa ≠ 0)
    (h : x.exponent = 971 → x.mantissa < 2 ^ 53 - 2) :
    (shortest x).value ≤ (2 ^ 53 - 5 / 2) * 2 ^ (971 : Int) := by
  obtain ⟨hnear, -⟩ := shortest_spec hdouble hx
  have hunit := two_zpow_pos x.exponent
  have hvalue : (shortest x).value ≤ (x.mantissa + 1 / 2) * 2 ^ x.exponent := by
    have := (abs_le.mp hnear).1
    rw [Magnitude.value] at this
    linarith
  refine hvalue.trans ?_
  by_cases hmax : x.exponent = 971
  · have hmantissa : (x.mantissa : ℚ) + 3 ≤ 2 ^ 53 := by
      have hlt : x.mantissa + 3 ≤ 2 ^ 53 := by
        have := h hmax
        omega
      exact_mod_cast hlt
    rw [hmax]
    exact mul_le_mul_of_nonneg_right (by linarith) (two_zpow_pos _).le
  · have hmantissa : (x.mantissa : ℚ) ≤ 2 ^ 53 := by exact_mod_cast hdouble.mantissa_lt.le
    have hpower : (2 : ℚ) ^ x.exponent * 2 ≤ 2 ^ (971 : Int) := by
      rw [← zpow_add_one₀ two_ne_zero]
      have := hdouble.greatest
      exact zpow_le_zpow_right₀ one_le_two (by omega)
    have := mul_le_mul_of_nonneg_right hmantissa hunit.le
    generalize (2 : ℚ) ^ (971 : Int) = largest at hpower ⊢
    linarith

/-- The text of a number with a power of ten that is not negative is not too large to be read,
though neither the digits nor the power are exact. -/
theorem isSome_scale?_shortest (hdouble : x.IsDouble) (hx : x.mantissa ≠ 0)
    (hexponent : 0 ≤ (shortest x).exponent) :
    ((nearest? (shortest x).digits 1).bind (·.scale? (shortest x).exponent)).isSome := by
  obtain ⟨-, hpos, hle⟩ := shortest_spec hdouble hx
  by_cases hlargest : x.exponent = 971 → x.mantissa < 2 ^ 53 - 2
  · have hvalue := value_shortest_le hdouble hx hlargest
    obtain ⟨y, hy, hclose⟩ := exists_nearest?_natural hpos hle
    obtain ⟨n, hn⟩ := Int.eq_ofNat_of_zero_le hexponent
    have hdigits : (1 : ℚ) ≤ (shortest x).digits := Nat.one_le_cast.mpr hpos
    rw [Decimal.value, hn, zpow_natCast] at hvalue
    have hunit := two_zpow_pos 971
    have hpower : (10 : ℚ) ^ n < 10 ^ 309 := by
      refine lt_of_le_of_lt ?_ limit_lt_ten_pow
      refine (le_mul_of_one_le_left (by positivity) hdigits).trans (hvalue.trans ?_)
      rw [limit_eq]
      exact mul_le_mul_of_nonneg_right (by norm_num) hunit.le
    have hn' : n ≤ 308 := by
      have := (pow_lt_pow_iff_right₀ (by norm_num)).mp hpower
      omega
    rw [hy, Option.bind_some, hn]
    refine isSome_scale?_of_lt (Nat.cast_pos.mpr hpos) hclose hn' ?_
    calc ((shortest x).digits : ℚ) * 10 ^ n * (1 + 1 / 2 ^ 53) ^ 2
        ≤ (2 ^ 53 - 5 / 2) * 2 ^ (971 : Int) * (1 + 1 / 2 ^ 53) ^ 2 :=
          mul_le_mul_of_nonneg_right hvalue (by positivity)
      _ = (2 ^ 53 - 5 / 2) * (1 + 1 / 2 ^ 53) ^ 2 * 2 ^ (971 : Int) := by ring
      _ < (2 ^ 53 - 1 / 2) * 2 ^ (971 : Int) := mul_lt_mul_of_pos_right (by norm_num) hunit
      _ = limit := limit_eq.symm
  · obtain ⟨hmax, hmantissa⟩ := Classical.not_imp.mp hlargest
    have hlt := hdouble.mantissa_lt
    obtain ⟨m, e⟩ := x
    simp only at hmax hmantissa hlt
    subst hmax
    refine largest_table m ?_
    simp only [List.mem_cons, List.not_mem_nil, or_false]
    omega

end Shortest

end Rendezvous.Numeral
