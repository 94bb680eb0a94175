import Mathlib.Data.List.Induction
import Mathlib.Tactic.Ring
import Rendezvous.Numeral.Positional

namespace Rendezvous.Numeral.Positional

variable {b : Nat}

theorem lt_pow_length_digits (hb : 1 < b) (n : Nat) : n < b ^ (digits b n).length := by
  induction n using Nat.strongRecOn with
  | ind n ih =>
    rw [digits]
    split
    · next h =>
      have hrest := ih (n / b) (Nat.div_lt_self (by omega) hb)
      rw [List.length_append, List.length_singleton, Nat.pow_succ,
        ← Nat.div_lt_iff_lt_mul (by omega)]
      exact hrest
    · next h =>
      rw [List.length_singleton, Nat.pow_one]
      omega

theorem pow_length_digits_le (hb : 1 < b) {n : Nat} (pos : 0 < n) :
    b ^ ((digits b n).length - 1) ≤ n := by
  induction n using Nat.strongRecOn with
  | ind n ih =>
    rw [digits]
    split
    · next h =>
      have hrest := ih (n / b) (Nat.div_lt_self pos hb) (Nat.div_pos h.2 (by omega))
      have hlength : 0 < (digits b (n / b)).length :=
        List.length_pos_iff.mpr (digits_ne_nil b (n / b))
      rw [List.length_append, List.length_singleton, Nat.add_sub_cancel,
        ← Nat.sub_add_cancel hlength, Nat.pow_succ]
      exact (Nat.le_div_iff_mul_le (by omega)).mp hrest
    · exact pos

theorem exists_digits_cons {n : Nat} (pos : 0 < n) : ∃ d ds, digits b n = d :: ds ∧ d ≠ 0 := by
  induction n using Nat.strongRecOn with
  | ind n ih =>
    rw [digits]
    split
    · next h =>
      obtain ⟨d, ds, hds, hd⟩ :=
        ih (n / b) (Nat.div_lt_self pos h.1) (Nat.div_pos h.2 (by omega))
      exact ⟨d, ds ++ [n % b], by rw [hds, List.cons_append], hd⟩
    · exact ⟨n, [], rfl, Nat.ne_of_gt pos⟩

theorem value_append_list (ds es : List Nat) :
    value b (ds ++ es) = value b ds * b ^ es.length + value b es := by
  induction es using List.reverseRecOn with
  | nil => rw [List.append_nil, List.length_nil, Nat.pow_zero, Nat.mul_one]; rfl
  | append_singleton es e ih =>
    rw [← List.append_assoc, value_append, value_append, ih, List.length_append,
      List.length_singleton, Nat.pow_succ]
    ring

theorem value_replicate_zero (n : Nat) : value b (List.replicate n 0) = 0 := by
  induction n with
  | zero => rfl
  | succ n ih => rw [List.replicate_succ', value_append, ih, Nat.zero_mul]

theorem value_zero_cons (ds : List Nat) : value b (0 :: ds) = value b ds := by
  rw [value, List.foldl_cons, Nat.zero_mul]
  rfl

theorem le_value_cons (hb : 0 < b) (d : Nat) (ds : List Nat) : d ≤ value b (d :: ds) := by
  induction ds using List.reverseRecOn with
  | nil => exact Nat.le_of_eq (by rw [value, List.foldl_cons, Nat.zero_mul, Nat.zero_add]; rfl)
  | append_singleton ds e ih =>
    rw [← List.cons_append, value_append]
    calc d ≤ value b (d :: ds) := ih
      _ ≤ value b (d :: ds) * b := Nat.le_mul_of_pos_right _ hb
      _ ≤ value b (d :: ds) * b + e := Nat.le_add_right _ e

/-- Digits in front of which no zero stands are those of their value. -/
theorem digits_value {d : Nat} {ds : List Nat} (hd : d ≠ 0) (h : ∀ e ∈ d :: ds, e < b) :
    digits b (value b (d :: ds)) = d :: ds := by
  have hlt : d < b := h d List.mem_cons_self
  have hb : 1 < b := by omega
  induction ds using List.reverseRecOn with
  | nil =>
    have hvalue : value b [d] = d := by
      rw [value, List.foldl_cons, Nat.zero_mul, Nat.zero_add]
      rfl
    rw [hvalue, digits, dif_neg (by omega)]
  | append_singleton ds e ih =>
    have he : e < b := h e (by simp)
    have hrest := ih fun x hx => h x (by
      rw [← List.cons_append]
      exact List.mem_append_left [e] hx)
    have hfront : 0 < value b (d :: ds) :=
      (Nat.pos_of_ne_zero hd).trans_le (le_value_cons (by omega) d ds)
    have hlarge : b ≤ value b (d :: ds) * b + e :=
      (Nat.le_mul_of_pos_left b hfront).trans (Nat.le_add_right _ e)
    have hdiv : (value b (d :: ds) * b + e) / b = value b (d :: ds) := by
      rw [Nat.mul_comm, Nat.mul_add_div (by omega), Nat.div_eq_of_lt he, Nat.add_zero]
    have hmod : (value b (d :: ds) * b + e) % b = e := by
      rw [Nat.mul_comm, Nat.mul_add_mod, Nat.mod_eq_of_lt he]
    rw [← List.cons_append, value_append, digits, dif_pos ⟨hb, hlarge⟩, hdiv, hmod, hrest]

end Rendezvous.Numeral.Positional
