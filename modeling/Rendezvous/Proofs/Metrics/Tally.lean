import Rendezvous.Metrics.Event

namespace Rendezvous.Metrics

/-- By how much a series grows in all, when some series grow one after the other. -/
def grown (gs : List (Series × Nat)) (r : Series) : Nat :=
  match gs with
  | [] => 0
  | g :: gs => if g.1.text = r.text then g.2 + grown gs r else grown gs r

theorem Tally.of_eq (t : Tally) {r s : Series} (h : r.text = s.text) : t.of r = t.of s := by
  rw [Tally.of, h, Tally.of]

theorem Tally.of_count (t : Tally) (e : Event) (r : Series) :
    (t.count e).of r = t.of r + grown e.growth r := by
  unfold Tally.count
  induction e.growth generalizing t with
  | nil => rfl
  | cons g gs ih =>
    rw [List.foldl_cons, ih, Tally.of_grow]
    by_cases h : g.1.text = r.text
    · rw [if_pos h.symm, t.of_eq h, grown, if_pos h, Nat.add_assoc]
    · rw [if_neg (Ne.symm h), grown, if_neg h]

theorem grown_eq_zero {gs : List (Series × Nat)} {r : Series}
    (h : ∀ g ∈ gs, g.1.text ≠ r.text) : grown gs r = 0 := by
  induction gs with
  | nil => rfl
  | cons g gs ih =>
    rw [List.forall_mem_cons] at h
    rw [grown, if_neg h.1]
    exact ih h.2

theorem Series.exists_text (s : Series) : ∃ rest, s.text.toList = s.name.toList ++ rest := by
  unfold Series.text
  split
  · exact ⟨[], by simp⟩
  · simp only [String.toList_append, List.append_assoc]
    exact ⟨_, rfl⟩

theorem Series.text_ne {r s : Series} (name name' : String) (n : Nat) (hr : r.name = name)
    (hs : s.name = name') (hn : n ≤ name.toList.length) (hn' : n ≤ name'.toList.length)
    (h : name.toList.take n ≠ name'.toList.take n) : r.text ≠ s.text := by
  intro heq
  obtain ⟨rest, hrest⟩ := r.exists_text
  obtain ⟨rest', hrest'⟩ := s.exists_text
  rw [hr] at hrest
  rw [hs] at hrest'
  apply h
  have htake := congrArg (fun t : String => t.toList.take n) heq
  simpa [hrest, hrest', List.take_append_of_le_length hn, List.take_append_of_le_length hn']
    using htake

end Rendezvous.Metrics
