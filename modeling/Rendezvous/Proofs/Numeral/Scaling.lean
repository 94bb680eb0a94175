import Rendezvous.Proofs.Numeral.Rounding

namespace Rendezvous.Numeral.Binary64.Magnitude

theorem ratio_fst_pos {x : Magnitude} (h : x.mantissa ≠ 0) : 0 < x.ratio.1 :=
  Nat.mul_pos (Nat.pos_of_ne_zero h) (Positional.weight_pos Nat.two_pos _)

theorem value_zero : zero.value = 0 := by rw [value, zero, Nat.cast_zero, zero_mul]

theorem mantissa_ne_zero {x : Magnitude} (h : 0 < x.value) : x.mantissa ≠ 0 := by
  intro hzero
  rw [value, hzero, Nat.cast_zero, zero_mul] at h
  exact lt_irrefl 0 h

theorem ten_pow_table : 10 ^ 308 < (2 ^ 54 - 1) * 2 ^ 970 := by decide +kernel

theorem ten_pow_lt_limit {n : Nat} (h : n ≤ 308) : (10 : ℚ) ^ n < limit := by
  have htable : ((10 ^ 308 : Nat) : ℚ) < ((2 ^ 54 - 1) * 2 ^ 970 : Nat) :=
    Nat.cast_lt.mpr ten_pow_table
  rw [Nat.cast_pow, Nat.cast_mul, Nat.cast_pow, Nat.cast_sub (by norm_num), Nat.cast_pow,
    Nat.cast_ofNat, Nat.cast_ofNat, Nat.cast_one] at htable
  exact (pow_le_pow_right₀ (by norm_num) h).trans_lt htable

/-- The power of ten that is taken is close to the real one. -/
theorem exists_powerOfTen? {n : Nat} (h : n ≤ 308) :
    ∃ p, powerOfTen? n = some p ∧ |p.value - 10 ^ n| * 2 ^ 53 ≤ 10 ^ n := by
  have hpos : 0 < Positional.weight 10 n := Positional.weight_pos (by decide) n
  have hvalue : ((Positional.weight 10 n : Nat) : ℚ) / (1 : Nat) = 10 ^ n := by
    rw [Nat.cast_one, div_one, Positional.cast_weight, Nat.cast_ofNat]
  have hsome := isSome_nearest? hpos Nat.one_pos (hvalue ▸ ten_pow_lt_limit h)
  obtain ⟨p, hp⟩ := Option.isSome_iff_exists.mp hsome
  have hclose := nearest?_close hpos Nat.one_pos
    (hvalue ▸ one_le_pow₀ (by norm_num : (1 : ℚ) ≤ 10)) hp
  rw [hvalue] at hclose
  exact ⟨p, hp, hclose⟩

theorem one_lt_of_close {p : Magnitude} {n : Nat} (hn : 0 < n)
    (h : |p.value - 10 ^ n| * 2 ^ 53 ≤ 10 ^ n) : 1 < p.value := by
  have hten : (10 : ℚ) ≤ 10 ^ n := le_self_pow₀ (by norm_num) (Nat.ne_of_gt hn)
  have hlow := neg_abs_le (p.value - 10 ^ n)
  linarith

/-- A quotient by more than one stays below a power of two that bounds the dividend. -/
theorem exists_over? {x p : Magnitude} {k : Int} (hk : -1021 ≤ k) (hk' : k ≤ 970)
    (hx : x.value ≤ 2 ^ k) (hp : 1 < p.value) : ∃ y, x.over? p = some y ∧ y.value ≤ 2 ^ k := by
  by_cases hzero : x.mantissa = 0
  · have hnum : x.ratio.1 * p.ratio.2 = 0 := by rw [ratio, hzero, Nat.zero_mul, Nat.zero_mul]
    refine ⟨zero, ?_, ?_⟩
    · rw [over?, nearest?, if_pos hnum]
    · rw [value_zero]
      exact (two_zpow_pos k).le
  · have hpos : 0 < p.value := zero_lt_one.trans hp
    have hnum : 0 < x.ratio.1 * p.ratio.2 := Nat.mul_pos (ratio_fst_pos hzero) (ratio_pos p)
    have hden : 0 < x.ratio.2 * p.ratio.1 :=
      Nat.mul_pos (ratio_pos x) (ratio_fst_pos (mantissa_ne_zero hpos))
    have hvalue : ((x.ratio.1 * p.ratio.2 : Nat) : ℚ) / (x.ratio.2 * p.ratio.1 : Nat) =
        x.value / p.value := by
      rw [← ratio_value x, ← ratio_value p, Nat.cast_mul, Nat.cast_mul, div_div_div_eq]
    have hlt : x.value / p.value < 2 ^ k := by
      rw [div_lt_iff₀ hpos]
      exact hx.trans_lt (lt_mul_of_one_lt_right (two_zpow_pos k) hp)
    have hlimit : (2 : ℚ) ^ k ≤ limit := by
      rw [limit]
      refine (zpow_le_zpow_right₀ one_le_two hk').trans ?_
      exact le_mul_of_one_le_left (two_zpow_pos _).le (by norm_num)
    rw [← hvalue] at hlt
    obtain ⟨y, hy⟩ := Option.isSome_iff_exists.mp
      (isSome_nearest? hnum hden (hlt.trans_le hlimit))
    exact ⟨y, hy, value_le_of_lt hnum hden hk hlt hy⟩

theorem exists_down? {k : Int} (hk : -1021 ≤ k) (hk' : k ≤ 970) (n : Nat) {x : Magnitude}
    (hx : x.value ≤ 2 ^ k) : ∃ y, down? n x = some y ∧ y.value ≤ 2 ^ k := by
  induction n generalizing x with
  | zero => exact ⟨x, rfl, hx⟩
  | succ n ih =>
    rw [down?]
    split
    · exact ⟨x, rfl, hx⟩
    · obtain ⟨p, hp, hclose⟩ := exists_powerOfTen? (n := 308) (le_refl _)
      obtain ⟨y, hy, hbound⟩ := exists_over? hk hk' hx (one_lt_of_close (by decide) hclose)
      rw [hp, Option.bind_some, hy]
      exact ih hbound

/-- A negative power of ten never makes a number too large that is not so by itself. -/
theorem isSome_scale?_of_neg {x : Magnitude} {k : Int} (hk : -1021 ≤ k) (hk' : k ≤ 970)
    (hx : x.value ≤ 2 ^ k) {e : Int} (he : e < 0) : (x.scale? e).isSome := by
  rw [scale?, if_neg (by omega), if_neg (by omega)]
  obtain ⟨y, hy, hbound⟩ := exists_down? hk hk' ((-e - 1) / 308).toNat hx
  simp only [hy, Option.bind_some]
  split
  · rfl
  · obtain ⟨p, hp, hclose⟩ := exists_powerOfTen?
      (n := (-e - 308 * ((-e - 1) / 308).toNat).toNat) (by omega)
    obtain ⟨z, hz, -⟩ := exists_over? hk hk' hbound (one_lt_of_close (by omega) hclose)
    rw [hp, Option.bind_some, hz]
    rfl

/-- A power of ten that is not negative does so only if the product comes close to the limit: three
roundings, of the number, the power and the product, each change little. -/
theorem isSome_scale?_of_lt {x : Magnitude} {q : ℚ} (hpos : 0 < q)
    (hclose : |x.value - q| * 2 ^ 53 ≤ q) {n : Nat} (hn : n ≤ 308)
    (h : q * 10 ^ n * (1 + 1 / 2 ^ 53) ^ 2 < limit) : (x.scale? n).isSome := by
  obtain ⟨p, hp, hpclose⟩ := exists_powerOfTen? hn
  have hpower : (1 : ℚ) ≤ 10 ^ n := one_le_pow₀ (by norm_num)
  have hxhigh : x.value ≤ q * (1 + 1 / 2 ^ 53) := by
    have := le_abs_self (x.value - q)
    linarith
  have hxlow : 0 < x.value := by
    have := neg_abs_le (x.value - q)
    linarith
  have hphigh : p.value ≤ 10 ^ n * (1 + 1 / 2 ^ 53) := by
    have := le_abs_self (p.value - 10 ^ n)
    linarith
  have hplow : 0 < p.value := by
    have := neg_abs_le (p.value - 10 ^ n)
    linarith
  have hnum : 0 < x.ratio.1 * p.ratio.1 :=
    Nat.mul_pos (ratio_fst_pos (mantissa_ne_zero hxlow)) (ratio_fst_pos (mantissa_ne_zero hplow))
  have hden : 0 < x.ratio.2 * p.ratio.2 := Nat.mul_pos (ratio_pos x) (ratio_pos p)
  have hvalue : ((x.ratio.1 * p.ratio.1 : Nat) : ℚ) / (x.ratio.2 * p.ratio.2 : Nat) =
      x.value * p.value := by
    rw [← ratio_value x, ← ratio_value p, Nat.cast_mul, Nat.cast_mul, div_mul_div_comm]
  have hlt : x.value * p.value < limit := by
    refine lt_of_le_of_lt ?_ h
    calc x.value * p.value
        ≤ q * (1 + 1 / 2 ^ 53) * (10 ^ n * (1 + 1 / 2 ^ 53)) :=
          mul_le_mul hxhigh hphigh hplow.le (by positivity)
      _ = q * 10 ^ n * (1 + 1 / 2 ^ 53) ^ 2 := by ring
  rw [scale?, if_neg (by omega), if_pos (Int.natCast_nonneg n), Int.toNat_natCast, hp]
  exact isSome_nearest? hnum hden (hvalue ▸ hlt)

end Rendezvous.Numeral.Binary64.Magnitude
