namespace Rendezvous.Numeral.Positional

/-- The weight in base `b` of the digit that stands before `i` others. -/
def weight (b i : Nat) : Nat := Nat.pow b i

/-- The digits of `n` in base `b`; zero has one digit. -/
def digits (b n : Nat) : List Nat :=
  if _h : 1 < b ∧ b ≤ n then digits b (n / b) ++ [n % b] else [n]
termination_by n
decreasing_by exact Nat.div_lt_self (by omega) _h.1

def value (b : Nat) (ds : List Nat) : Nat := ds.foldl (fun acc d => acc * b + d) 0

theorem value_append (b : Nat) (ds : List Nat) (d : Nat) :
    value b (ds ++ [d]) = value b ds * b + d := by
  simp [value]

theorem value_digits (b n : Nat) : value b (digits b n) = n := by
  induction n using Nat.strongRecOn with
  | ind n ih =>
    rw [digits]
    split
    · next h =>
      rw [value_append, ih _ (Nat.div_lt_self (by omega) h.1), Nat.mul_comm]
      exact Nat.div_add_mod n b
    · simp [value]

theorem digits_ne_nil (b n : Nat) : digits b n ≠ [] := by
  rw [digits]; split <;> simp

theorem lt_of_mem_digits {b n d : Nat} (hb : 1 < b) (h : d ∈ digits b n) : d < b := by
  induction n using Nat.strongRecOn with
  | ind n ih =>
    rw [digits] at h
    split at h
    · next hn =>
      rcases List.mem_append.1 h with h | h
      · exact ih _ (Nat.div_lt_self (by omega) hn.1) h
      · rw [List.mem_singleton.1 h]; exact Nat.mod_lt _ (by omega)
    · next hn => rw [List.mem_singleton.1 h]; omega

end Rendezvous.Numeral.Positional
