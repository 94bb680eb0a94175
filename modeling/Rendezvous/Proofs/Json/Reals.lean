import Rendezvous.Proofs.Json.Literals
import Rendezvous.Proofs.Numeral.Shortest

namespace Rendezvous.Json.Number

open Numeral Numeral.Binary64 Numeral.Binary64.Magnitude

/-- A literal is read as a real number if its digits, taken for a whole number, can be scaled. -/
theorem exists_readAs_of_written {x : Binary64} (whole fraction : List Nat) (exponent : Option Int)
    (text : (real x).chars = Literal.written x.negative whole fraction exponent)
    (filled : whole ≠ []) (tight : Literal.tight whole = true) (hwhole : ∀ d ∈ whole, d < 10)
    (hfraction : ∀ d ∈ fraction, d < 10)
    (hreal : (fraction.isEmpty && exponent.isNone) = false)
    (hlt : Positional.value 10 (whole ++ fraction) < 0x10000000000000000)
    (hscale : ((nearest? (Positional.value 10 (whole ++ fraction)) 1).bind
      (·.scale? (exponent.getD 0 - fraction.length))).isSome) : ∃ m, (real x).ReadAs m := by
  obtain ⟨z, hz⟩ := Option.isSome_iff_exists.mp hscale
  obtain ⟨y, hy, hyz⟩ := Option.bind_eq_some_iff.mp hz
  refine ⟨.real ⟨x.negative, z⟩, x.negative, whole, fraction, exponent, text, filled, tight, hwhole,
    hfraction, ?_⟩
  rw [hreal, Literal.number?_real x.negative _ hlt, hy, Option.bind_some, hyz, Option.map_some]

/-- With a negative power of ten, digits that fit in 64 bits can always be scaled. -/
theorem isSome_scale?_digits {n : Nat} (h : n < 0x10000000000000000) {e : Int} (he : e < 0) :
    ((nearest? n 1).bind (·.scale? e)).isSome := by
  have hsome : ∃ y, nearest? n 1 = some y ∧ y.value ≤ 2 ^ (64 : Int) := by
    rcases Nat.eq_zero_or_pos n with rfl | pos
    · exact ⟨zero, rfl, value_zero ▸ (two_zpow_pos 64).le⟩
    · have hlt : (n : ℚ) / (1 : Nat) < 2 ^ (64 : Int) := by
        rw [Nat.cast_one, div_one]
        exact_mod_cast h
      have hlimit : (2 : ℚ) ^ (64 : Int) ≤ limit := by
        refine le_trans (zpow_le_zpow_right₀ one_le_two (by decide : (64 : Int) ≤ 970)) ?_
        exact le_mul_of_one_le_left (two_zpow_pos _).le (by norm_num)
      obtain ⟨y, hy⟩ := Option.isSome_iff_exists.mp
        (isSome_nearest? pos Nat.one_pos (hlt.trans_le hlimit))
      exact ⟨y, hy, value_le_of_lt pos Nat.one_pos (by decide) hlt hy⟩
  obtain ⟨y, hy, hvalue⟩ := hsome
  rw [hy, Option.bind_some]
  exact isSome_scale?_of_neg (by decide) (by decide) hvalue he

section

variable {x : Binary64} {n : Nat}

theorem digitChar_zero : Decimal.digitChar 0 = '0' := rfl

theorem fractionChars_of_ne_nil {ds : List Nat} (h : ds ≠ []) :
    Literal.fractionChars ds = '.' :: ds.map Decimal.digitChar := by
  cases ds with
  | nil => exact absurd rfl h
  | cons d ds => rfl

theorem exists_readAs_whole (pos : 0 < n) {k : Nat}
    (hlength : (Positional.digits 10 n).length + k ≤ 16)
    (text : (real x).chars = (if x.negative then ['-'] else []) ++
      (Decimal.chars n ++ List.replicate k '0' ++ ['.', '0'])) : ∃ m, (real x).ReadAs m := by
  obtain ⟨d, ds, hds, hd⟩ := Positional.exists_digits_cons (b := 10) pos
  have hvalue : Positional.value 10 (Positional.digits 10 n ++ List.replicate k 0 ++ [0]) =
      n * 10 ^ (k + 1) := by
    rw [List.append_assoc, ← List.replicate_succ', Positional.value_append_list,
      Positional.value_digits, Positional.value_replicate_zero, List.length_replicate, Nat.add_zero]
  have hlt : n * 10 ^ (k + 1) < 0x10000000000000000 := by
    calc n * 10 ^ (k + 1) ≤ 10 ^ (Positional.digits 10 n).length * 10 ^ (k + 1) :=
          Nat.mul_le_mul_right _ (Positional.lt_pow_length_digits (by decide) n).le
      _ = 10 ^ ((Positional.digits 10 n).length + (k + 1)) := (Nat.pow_add _ _ _).symm
      _ ≤ 10 ^ 17 := Nat.pow_le_pow_right (by decide) (by omega)
      _ < 0x10000000000000000 := by decide
  refine exists_readAs_of_written (Positional.digits 10 n ++ List.replicate k 0) [0] none
    ?_ ?_ ?_ ?_ (by decide) rfl (hvalue.symm ▸ hlt) ?_
  · rw [text, Literal.written, List.map_append, List.map_replicate]
    simp [Literal.fractionChars, Literal.exponentChars, Decimal.chars, Decimal.digitChar]
  · rw [hds]
    exact List.cons_ne_nil d _
  · rw [hds, List.cons_append]
    exact Literal.tight_cons hd _
  · intro d hd
    rcases List.mem_append.mp hd with hd | hd
    · exact Literal.digit_of_mem_digits hd
    · rw [List.eq_of_mem_replicate hd]
      decide
  · rw [hvalue]
    exact isSome_scale?_digits hlt (by decide)

theorem exists_readAs_inside (pos : 0 < n) (hn : n < 0x10000000000000000) {i : Nat}
    (hlength : i + 1 < (Positional.digits 10 n).length)
    (text : (real x).chars = (if x.negative then ['-'] else []) ++
      ((Decimal.chars n).take (i + 1) ++ ['.'] ++ (Decimal.chars n).drop (i + 1))) :
    ∃ m, (real x).ReadAs m := by
  obtain ⟨d, ds, hds, hd⟩ := Positional.exists_digits_cons (b := 10) pos
  have hfraction : (Positional.digits 10 n).drop (i + 1) ≠ [] :=
    mt List.drop_eq_nil_iff.mp (not_le.mpr hlength)
  have hvalue : Positional.value 10
      ((Positional.digits 10 n).take (i + 1) ++ (Positional.digits 10 n).drop (i + 1)) = n := by
    rw [List.take_append_drop, Positional.value_digits]
  refine exists_readAs_of_written _ _ none ?_ ?_ ?_
    (fun d hd => Literal.digit_of_mem_digits (List.mem_of_mem_take hd))
    (fun d hd => Literal.digit_of_mem_digits (List.mem_of_mem_drop hd)) ?_ (hvalue.symm ▸ hn) ?_
  · rw [text, Literal.written, fractionChars_of_ne_nil hfraction, List.map_take, List.map_drop]
    simp [Literal.exponentChars, Decimal.chars]
  · rw [hds]
    exact List.cons_ne_nil d _
  · rw [hds]
    exact Literal.tight_cons hd _
  · rw [List.isEmpty_eq_false_iff.mpr hfraction, Bool.false_and]
  · rw [hvalue]
    have hpos := List.length_pos_iff.mpr hfraction
    exact isSome_scale?_digits hn (by rw [Option.getD_none]; omega)

theorem exists_readAs_below (hn : n < 0x10000000000000000) (k : Nat)
    (text : (real x).chars = (if x.negative then ['-'] else []) ++
      (['0', '.'] ++ (List.replicate k '0' ++ Decimal.chars n))) : ∃ m, (real x).ReadAs m := by
  have hfraction : List.replicate k 0 ++ Positional.digits 10 n ≠ [] :=
    List.append_ne_nil_of_right_ne_nil _ (Positional.digits_ne_nil 10 n)
  have hvalue :
      Positional.value 10 ([0] ++ (List.replicate k 0 ++ Positional.digits 10 n)) = n := by
    rw [← List.append_assoc, ← List.replicate_one, ← List.replicate_add,
      Positional.value_append_list, Positional.value_replicate_zero, Positional.value_digits,
      Nat.zero_mul, Nat.zero_add]
  refine exists_readAs_of_written [0] _ none ?_ (by decide) rfl (by decide)
    (fun d hd => ?_) ?_ (hvalue.symm ▸ hn) ?_
  · rw [text, Literal.written, fractionChars_of_ne_nil hfraction, List.map_append,
      List.map_replicate]
    simp [Literal.exponentChars, Decimal.chars, digitChar_zero]
  · rcases List.mem_append.mp hd with hd | hd
    · rw [List.eq_of_mem_replicate hd]
      decide
    · exact Literal.digit_of_mem_digits hd
  · rw [List.isEmpty_eq_false_iff.mpr hfraction, Bool.false_and]
  · rw [hvalue]
    have hpos := List.length_pos_iff.mpr hfraction
    exact isSome_scale?_digits hn (by rw [Option.getD_none]; omega)

theorem exists_readAs_scientific (pos : 0 < n) (hn : n < 0x10000000000000000) {e : Int}
    (hscale : ((nearest? n 1).bind
      (·.scale? (e - ((Positional.digits 10 n).length - 1 : Nat)))).isSome)
    (text : (real x).chars = (if x.negative then ['-'] else []) ++
      ((Decimal.chars n).take 1 ++
        (if (Decimal.chars n).length = 1 then [] else '.' :: (Decimal.chars n).drop 1) ++
        ['e', if e < 0 then '-' else '+'] ++ Decimal.chars e.natAbs)) : ∃ m, (real x).ReadAs m := by
  obtain ⟨d, ds, hds, hd⟩ := Positional.exists_digits_cons (b := 10) pos
  have hlt : ∀ d' ∈ d :: ds, d' < 10 := hds ▸ fun d' => Literal.digit_of_mem_digits
  have hvalue : Positional.value 10 ([d] ++ ds) = n := by
    rw [List.singleton_append, ← hds, Positional.value_digits]
  have hchars : Decimal.chars n = Decimal.digitChar d :: ds.map Decimal.digitChar := by
    rw [Decimal.chars, hds, List.map_cons]
  rw [hds, List.length_cons, Nat.add_sub_cancel] at hscale
  refine exists_readAs_of_written [d] ds (some e) ?_
    (List.cons_ne_nil d _) (Literal.tight_cons hd _) (fun d' hd' => hlt d' ?_)
    (fun d' hd' => hlt d' (List.mem_cons_of_mem d hd')) (Bool.and_false _) (hvalue.symm ▸ hn) ?_
  · rw [text, Literal.written, hchars]
    cases ds with
    | nil => simp [Literal.fractionChars, Literal.exponentChars]
    | cons d' ds => simp [Literal.fractionChars, Literal.exponentChars]
  · exact List.mem_singleton.mp hd' ▸ List.mem_cons_self
  · rw [hvalue]
    exact hscale

end

/-- The text of a decimal in any layout is read back as some number. -/
theorem exists_readAs_of_decimal {x : Binary64} {d : Shortest.Decimal} (pos : 0 < d.digits)
    (hdigits : d.digits ≤ 10 ^ 17)
    (hscale : 0 ≤ d.exponent → ((nearest? d.digits 1).bind (·.scale? d.exponent)).isSome)
    (text : (real x).chars = (if x.negative then ['-'] else []) ++ d.chars Shortest.layout) :
    ∃ m, (real x).ReadAs m := by
  have hlt : d.digits < 0x10000000000000000 := hdigits.trans_lt (by decide)
  have hlength : (Decimal.chars d.digits).length = (Positional.digits 10 d.digits).length :=
    List.length_map _
  have hfilled : 0 < (Positional.digits 10 d.digits).length :=
    List.length_pos_iff.mpr (Positional.digits_ne_nil 10 _)
  have hleast : Shortest.layout.leastExponent = -5 := rfl
  have hgreatest : Shortest.layout.greatestExponent = 15 := rfl
  simp only [Shortest.Decimal.chars] at text
  generalize he : d.exponent + ((Decimal.chars d.digits).length : Int) - 1 = e at text
  by_cases hwritten : Shortest.layout.leastExponent ≤ e ∧ e ≤ Shortest.layout.greatestExponent
  · rw [if_pos hwritten] at text
    by_cases hwhole : 0 ≤ d.exponent
    · rw [if_pos hwhole] at text
      exact exists_readAs_whole pos (by omega) text
    · rw [if_neg hwhole] at text
      by_cases hinside : 0 ≤ e
      · rw [if_pos hinside] at text
        exact exists_readAs_inside pos hlt (by omega) text
      · rw [if_neg hinside] at text
        exact exists_readAs_below hlt _ text
  · rw [if_neg hwritten] at text
    refine exists_readAs_scientific pos hlt ?_ text
    rw [show e - ((Positional.digits 10 d.digits).length - 1 : Nat) = d.exponent by omega]
    rcases lt_or_ge d.exponent 0 with hneg | hnonneg
    · exact isSome_scale?_digits hlt hneg
    · exact hscale hnonneg

/-- Every finite real number can be read from its text. -/
theorem exists_readAs_real {x : Binary64} (h : x.magnitude.IsDouble) : ∃ m, (real x).ReadAs m := by
  by_cases hzero : x.magnitude.mantissa = 0
  · refine exists_readAs_below (n := 0) (by decide) 0 ?_
    rw [chars, Shortest.chars, if_pos hzero, Decimal.chars, Positional.digits]
    rfl
  · obtain ⟨-, pos, hdigits⟩ := Shortest.shortest_spec h hzero
    refine exists_readAs_of_decimal pos hdigits (Shortest.isSome_scale?_shortest h hzero) ?_
    rw [chars, Shortest.chars, if_neg hzero]
    rfl

end Rendezvous.Json.Number
