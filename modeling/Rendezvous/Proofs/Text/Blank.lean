import Mathlib.Data.List.DropRight
import Rendezvous.Text.Blank

namespace Rendezvous.Text.Blank

theorem dropEndWhile_append_of_all {α : Type} {p : α → Bool} (xs : List α) {ys : List α}
    (h : ∀ y ∈ ys, p y) : dropEndWhile p (xs ++ ys) = dropEndWhile p xs := by
  rw [dropEndWhile, List.reverse_append, List.dropWhile_append_of_pos (by simpa using h),
    dropEndWhile]

theorem dropEndWhile_eq_self {α : Type} {p : α → Bool} {xs : List α} (h : ∀ x ∈ xs, ¬p x) :
    dropEndWhile p xs = xs :=
  List.rdropWhile_eq_self_iff.2 fun hne => h _ (List.getLast_mem hne)

theorem exists_eq_trimEnd_append (c : Char) (s : String) :
    ∃ k, s = trimEnd c s ++ String.ofList (List.replicate k c) := by
  let ys := s.toList.reverse.takeWhile (· == c)
  have hys : ys.reverse = List.replicate ys.length c := by
    rw [← List.length_reverse, List.eq_replicate_iff]
    refine ⟨rfl, fun y hy => ?_⟩
    have hm : y ∈ ys := List.mem_reverse.1 hy
    have h := List.mem_takeWhile_imp hm
    exact beq_iff_eq.1 h
  refine ⟨ys.length, ?_⟩
  have hs : s.toList = dropEndWhile (· == c) s.toList ++ ys.reverse := by
    rw [dropEndWhile, ← List.reverse_append, List.takeWhile_append_dropWhile, List.reverse_reverse]
  rw [trimEnd, ← hys, ← String.ofList_append, ← hs, String.ofList_toList]

theorem trimEnd_append_replicate {c : Char} {s : String} (h : c ∉ s.toList) (k : Nat) :
    trimEnd c (s ++ String.ofList (List.replicate k c)) = s := by
  have hk : ∀ y ∈ List.replicate k c, (y == c) = true := fun y hy =>
    beq_iff_eq.2 (List.eq_of_mem_replicate hy)
  have hs : ∀ x ∈ s.toList, ¬(x == c) = true := fun x hx e => h (beq_iff_eq.1 e ▸ hx)
  rw [trimEnd, String.toList_append, String.toList_ofList, dropEndWhile_append_of_all _ hk,
    dropEndWhile_eq_self hs, String.ofList_toList]

end Rendezvous.Text.Blank
