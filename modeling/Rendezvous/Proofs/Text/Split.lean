import Mathlib.Data.List.TakeDrop

namespace Rendezvous.Text.Split

variable {α : Type} {p : α → Bool}

theorem sublist_of_mem_splitOn [BEq α] [LawfulBEq α] {a : α} {xs part : List α}
    (h : part ∈ xs.splitOn a) : part.Sublist (xs.filter (· != a)) := by
  induction xs generalizing part with
  | nil =>
    rw [List.splitOn_nil, List.mem_singleton] at h
    rw [h]
    exact List.nil_sublist _
  | cons x xs ih =>
    rw [List.splitOn_cons_eq_if_modifyHead] at h
    by_cases hx : (x == a) = true
    · rw [List.filter_cons_of_neg (by simp [bne, hx])]
      rw [if_pos hx] at h
      rcases List.mem_cons.mp h with rfl | h
      · exact List.nil_sublist _
      · exact ih h
    · rw [List.filter_cons_of_pos (by simpa [bne] using hx)]
      rw [if_neg hx] at h
      obtain ⟨first, rest, hs⟩ := List.exists_cons_of_ne_nil (List.splitOn_ne_nil a xs)
      rw [hs, List.modifyHead_cons] at h
      rw [hs] at ih
      rcases List.mem_cons.mp h with rfl | h
      · exact (ih List.mem_cons_self).cons_cons x
      · exact (ih (List.mem_cons_of_mem _ h)).cons x

theorem not_mem_of_mem_splitOn [BEq α] [LawfulBEq α] {a : α} {xs part : List α}
    (h : part ∈ xs.splitOn a) : a ∉ part := fun ha => by
  have hkept := (List.mem_filter.mp ((sublist_of_mem_splitOn h).subset ha)).2
  simp at hkept

theorem takeWhile_append_cons {y : α} (hy : p y = false) (xs ys : List α) :
    (xs ++ y :: ys).takeWhile p = xs.takeWhile p := by
  induction xs with
  | nil => simp [hy]
  | cons x xs ih => simp only [List.cons_append, List.takeWhile_cons, ih]

theorem dropWhile_append_cons {y : α} (hy : p y = false) (xs ys : List α) :
    (xs ++ y :: ys).dropWhile p = xs.dropWhile p ++ y :: ys := by
  induction xs with
  | nil => simp [hy]
  | cons x xs ih =>
    simp only [List.cons_append, List.dropWhile_cons, ih]
    split <;> rfl

end Rendezvous.Text.Split
