import Rendezvous.Proofs.Store.Memory

namespace Rendezvous

instance lawfulOrderMaxInt64 : Std.LawfulOrderMax Int64 where
  max_eq_or a b := by
    change (if a ≤ b then b else a) = a ∨ (if a ≤ b then b else a) = b
    by_cases h : a ≤ b
    · exact .inr (if_pos h)
    · exact .inl (if_neg h)
  max_le_iff a b c := by
    change (if a ≤ b then b else a) ≤ c ↔ a ≤ c ∧ b ≤ c
    split
    · next h => exact ⟨fun hb => ⟨Int64.le_trans h hb, hb⟩, And.right⟩
    · next h =>
      have h := Int64.not_le.mp h
      exact ⟨fun ha => ⟨ha, Int64.le_trans (Int64.le_of_lt h) ha⟩, And.left⟩

namespace Meeting

def isExpiredBy (m : Meeting) (times : List Int64) : Bool := times.max?.any m.isExpiredAt

theorem isExpiredAt_max (m : Meeting) (a b : Int64) :
    m.isExpiredAt (max a b) = (m.isExpiredAt a || m.isExpiredAt b) := by
  rw [Bool.eq_iff_iff, Bool.or_eq_true]
  simp only [isExpiredAt, decide_eq_true_eq]
  constructor
  · intro h
    rcases Std.MaxEqOr.max_eq_or a b with hmax | hmax
    · exact .inl (hmax ▸ h)
    · exact .inr (hmax ▸ h)
  · rintro (h | h)
    · exact Int64.le_trans h Std.left_le_max
    · exact Int64.le_trans h Std.right_le_max

end Meeting

namespace Store.Memory

variable {s : Memory}

theorem entries_foldl_erase (ms : List Meeting) (chats : Dictionary ChatLink) :
    (ms.foldl (fun chats m => chats.erase m.id) chats).entries =
      chats.entries.filter fun e => !ms.any (·.id == e.1) := by
  induction ms generalizing chats with
  | nil => simp
  | cons m ms ih =>
    rw [List.foldl_cons, ih, Dictionary.erase, List.filter_filter]
    refine List.filter_congr fun e _ => ?_
    rw [List.any_cons, Bool.not_or, Bool.and_comm, bne, BEq.comm]

theorem any_or_any (ms : List Meeting) (p q : Meeting → Bool) :
    (ms.any p || ms.any q) = ms.any fun m => p m || q m := by
  rw [Bool.eq_iff_iff]
  simp [← exists_or, ← and_or_left]

/-- A second sweep takes what has expired between the cut-offs if its own is the larger one, and
nothing otherwise. -/
theorem meetings_deleteExpired_deleteExpired (s : Memory) (a b : Int64) :
    ((s.deleteExpired a).2.deleteExpired b).2.meetings =
      (s.deleteExpired (max b a)).2.meetings := by
  dsimp only [deleteExpired]
  rw [List.filter_filter]
  refine List.filter_congr fun m _ => ?_
  rw [m.isExpiredAt_max, Bool.not_or]

theorem count_deleteExpired_deleteExpired (s : Memory) (a b : Int64) :
    (s.deleteExpired a).1 + ((s.deleteExpired a).2.deleteExpired b).1 =
      (s.deleteExpired (max b a)).1 := by
  dsimp only [deleteExpired]
  -- of what has expired by the larger cut-off, the first sweep takes a part and leaves the rest
  have hsplit := List.length_eq_countP_add_countP (·.isExpiredAt a)
    (l := s.meetings.filter (·.isExpiredAt (max b a)))
  rw [List.countP_filter, List.countP_filter] at hsplit
  rw [hsplit, List.filter_filter, ← List.countP_eq_length_filter, ← List.countP_eq_length_filter]
  congr 1
  · refine List.countP_congr fun m _ => ?_
    rw [m.isExpiredAt_max]
    cases m.isExpiredAt a <;> simp
  · refine List.countP_congr fun m _ => ?_
    rw [m.isExpiredAt_max]
    cases m.isExpiredAt a <;> simp

theorem chats_deleteExpired_deleteExpired (s : Memory) (a b : Int64) :
    ((s.deleteExpired a).2.deleteExpired b).2.chats = (s.deleteExpired (max b a)).2.chats := by
  refine Dictionary.ext ?_
  dsimp only [deleteExpired]
  rw [entries_foldl_erase, entries_foldl_erase, entries_foldl_erase, List.filter_filter]
  refine List.filter_congr fun e _ => ?_
  rw [← Bool.not_or, List.filter_filter, List.any_filter, List.any_filter, List.any_filter,
    any_or_any]
  congr 2
  funext m
  rw [m.isExpiredAt_max]
  cases m.isExpiredAt a <;> simp

theorem deleteExpired_deleteExpired (s : Memory) (a b : Int64) :
    ((s.deleteExpired a).2.deleteExpired b).2 = (s.deleteExpired (max b a)).2 := by
  rw [Memory.mk.injEq]
  exact ⟨rfl, meetings_deleteExpired_deleteExpired s a b, chats_deleteExpired_deleteExpired s a b⟩

/-- What becomes of a store that is swept once, with the largest of some cut-offs, and how many
meetings that removes. -/
def sweptBy (s : Memory) (cutoffs : List Int64) : Nat × Memory :=
  cutoffs.max?.elim (0, s) s.deleteExpired

/-- One more sweep. -/
theorem sweptBy_cons (s : Memory) (cutoff : Int64) (cutoffs : List Int64) :
    s.sweptBy (cutoff :: cutoffs) =
      ((s.sweptBy cutoffs).1 + ((s.sweptBy cutoffs).2.deleteExpired cutoff).1,
        ((s.sweptBy cutoffs).2.deleteExpired cutoff).2) := by
  unfold sweptBy
  rw [List.max?_cons]
  cases cutoffs.max? with
  | none => simp
  | some c =>
    exact Prod.ext (count_deleteExpired_deleteExpired s c cutoff).symm
      (deleteExpired_deleteExpired s c cutoff).symm

theorem meetings_sweptBy (s : Memory) (cutoffs : List Int64) :
    (s.sweptBy cutoffs).2.meetings = s.meetings.filter fun m => !m.isExpiredBy cutoffs := by
  unfold sweptBy Meeting.isExpiredBy
  cases cutoffs.max? with
  | none => simp
  | some c => rfl

theorem count_sweptBy (s : Memory) (cutoffs : List Int64) :
    (s.sweptBy cutoffs).1 = (s.meetings.filter (·.isExpiredBy cutoffs)).length := by
  unfold sweptBy Meeting.isExpiredBy
  cases cutoffs.max? with
  | none => simp
  | some c => rfl

theorem chatLink?_sweptBy (s : Memory) (cutoffs : List Int64) (id : String) :
    (s.sweptBy cutoffs).2.chatLink? id =
      if (s.meetings.filter (·.isExpiredBy cutoffs)).any (·.id == id) then none
      else s.chatLink? id := by
  unfold sweptBy Meeting.isExpiredBy
  cases cutoffs.max? with
  | none => simp
  | some c => exact get?_foldl_erase _ s.chats id

end Store.Memory

end Rendezvous
