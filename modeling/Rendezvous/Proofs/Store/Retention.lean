import Rendezvous.Meeting.Sample
import Rendezvous.Proofs.Store.History

namespace Rendezvous.Store

/-- The meeting that an operation asks for, and cannot do without. -/
def Operation.sought? : Operation → Option String
  | get id | delete id | setCall id .. | setSatisfaction id _ => some id
  | create _ | deleteExpired _ | chatLink _ | ping => none

namespace Memory

/-- After how many turns a meeting was last used; those that never were come first. -/
def lastUse (capacity : Nat) (id : String) : List Turn → Nat
  | [] => 0
  | t :: ts =>
    if t.used? (after capacity ts) = some id then ts.length + 1 else lastUse capacity id ts

variable {capacity : Nat} {ts : List Turn}

theorem lastUse_le (capacity : Nat) (id : String) (ts : List Turn) :
    lastUse capacity id ts ≤ ts.length := by
  induction ts with
  | nil => exact Nat.le_refl 0
  | cons t ts ih =>
    rw [lastUse]
    split
    · exact Nat.le_refl _
    · exact Nat.le_succ_of_le ih

theorem lastUse_of_used {t : Turn} {id : String}
    (h : t.used? (after capacity ts) = some id) : lastUse capacity id (t :: ts) = ts.length + 1 :=
  if_pos h

theorem lastUse_of_unused {t : Turn} {id : String} (h : t.used? (after capacity ts) ≠ some id) :
    lastUse capacity id (t :: ts) = lastUse capacity id ts :=
  if_neg h

end Memory

/-- What a turn uses comes to the front, and the other meetings keep their order. -/
theorem Turn.Change.order {s : Memory} {t : Turn} {ms : List Meeting} (h : Change s t ms) :
    (t.used? s = none ∧ ms.Sublist s.meetings) ∨
      ∃ n rest, ms = n :: rest ∧ t.used? s = some n.id ∧ rest.Sublist s.meetings ∧
        ∀ m ∈ rest, m.id ≠ n.id := by
  have hrest (id : String) : ∀ m ∈ s.without id, m.id ≠ id :=
    fun m hm => (Memory.mem_without.mp hm).2
  cases h with
  | same unused => exact .inl ⟨unused, List.Sublist.refl _⟩
  | @used t m held used =>
    have hid := t.id_effect s m
    refine .inr ⟨_, _, rfl, by rw [hid, used], List.filter_sublist, ?_⟩
    rw [hid]
    exact hrest m.id
  | deleted => exact .inl ⟨used?_of_useless rfl, List.filter_sublist⟩
  | lapsed _ _ _ unused => exact .inl ⟨unused, List.filter_sublist⟩
  | swept => exact .inl ⟨used?_of_useless rfl, List.filter_sublist⟩
  | @replaced now m n _ _ _ used =>
    exact .inr ⟨n, _, rfl, used, List.filter_sublist, hrest n.id⟩
  | @created now n new room used =>
    exact .inr ⟨n, _, rfl, used, List.Sublist.refl _, Memory.find?_eq_none.mp new⟩
  | @evicted now n new full used =>
    refine .inr ⟨n, _, rfl, used, List.dropLast_sublist _, fun m hm => ?_⟩
    exact Memory.find?_eq_none.mp new m ((List.dropLast_sublist _).subset hm)

namespace Memory

variable {capacity : Nat} {ts : List Turn}

/-- The meetings stand in the order of their last uses, the latest first. -/
theorem recent_first (room : 0 < capacity) (ts : List Turn) :
    (after capacity ts).meetings.Pairwise fun m n =>
      lastUse capacity n.id ts < lastUse capacity m.id ts := by
  induction ts with
  | nil => exact .nil
  | cons t ts ih =>
    rcases (change_after room ts t).order with ⟨hunused, hsub⟩ | ⟨n, rest, hms, hused, hsub, hne⟩
    · have hsame (id : String) : lastUse capacity id (t :: ts) = lastUse capacity id ts :=
        lastUse_of_unused (by simp [hunused])
      simp only [hsame]
      exact ih.sublist hsub
    · rw [hms, List.pairwise_cons]
      have hsame {m : Meeting} (hm : m ∈ rest) :
          lastUse capacity m.id (t :: ts) = lastUse capacity m.id ts := by
        apply lastUse_of_unused
        rw [hused]
        exact fun h => hne m hm (Option.some.inj h).symm
      constructor
      · intro m hm
        rw [hsame hm, lastUse_of_used hused]
        exact Nat.lt_succ_of_le (lastUse_le capacity m.id ts)
      · refine (ih.sublist hsub).imp_of_mem fun hm hn hlt => ?_
        rwa [hsame hm, hsame hn]

/-- In a full store a new meeting takes the place of the one with the oldest last use. -/
theorem evict_oldest (room : 0 < capacity) {now : Int64} {n : Meeting}
    (new : (after capacity ts).find? n.id = none) (full : (after capacity ts).size = capacity) :
    ∃ rest m, (after capacity ts).meetings = rest ++ [m] ∧
      (after capacity (.perform now (.create n) :: ts)).meetings = n :: rest ∧
      ∀ k ∈ rest, lastUse capacity m.id ts < lastUse capacity k.id ts := by
  have hne : (after capacity ts).meetings ≠ [] := by
    intro hnil
    simp only [size, hnil, List.length_nil] at full
    omega
  have hsplit := (List.dropLast_concat_getLast hne).symm
  refine ⟨_, _, hsplit, ?_, ?_⟩
  · have hcapacity := capacity_after capacity ts
    have hfree : ¬((after capacity ts).find? n.id).any (·.isVisibleAt now) := by
      simp [new]
    change ((after capacity ts).create now n).2.meetings = _
    rw [create_of_free hfree]
    exact push_of_full new (full.trans hcapacity.symm) (Nat.lt_of_lt_of_eq room hcapacity.symm)
  · have hrecent := recent_first room ts
    rw [hsplit, List.pairwise_append] at hrecent
    exact fun k hk => hrecent.2.2 k hk _ (List.mem_singleton_self _)

theorem perform_of_absent {s : Memory} {now : Int64} {op : Operation} {id : String}
    (hop : op.sought? = some id) (h : s.find? id = none) :
    s.perform now op = (.error .notFound, s) := by
  cases op with
  | create | deleteExpired | chatLink | ping => cases hop
  | get => cases hop; exact get_of_find?_eq_none h
  | delete => cases hop; exact delete_of_find?_eq_none h
  | setCall => cases hop; exact modify_of_find?_eq_none h _
  | setSatisfaction => cases hop; exact modify_of_find?_eq_none h _

/-- A store never holds more than its capacity, nor two meetings with one identifier. A meeting that
may be created is held, and no meeting goes without a reason. -/
theorem loss_explained (room : 0 < capacity) (ts : List Turn) :
    (after capacity ts).Keyed ∧
    (∀ id m, (after capacity ts).find? id = some m → m.id = id) ∧
    (after capacity ts).size ≤ capacity ∧
    (after capacity ts).meetings.Pairwise (fun m n =>
      lastUse capacity n.id ts < lastUse capacity m.id ts) ∧
    (∀ t, ∀ m ∈ (after capacity ts).meetings,
      t.effect (after capacity ts) m ∈ (after capacity (t :: ts)).meetings ∨
        Turn.Drops m t ∨ Turn.Strands (after capacity ts) m t) ∧
    (∀ now n, (after capacity ts).find? n.id = none → (after capacity ts).size = capacity →
      ∃ rest m, (after capacity ts).meetings = rest ++ [m] ∧
        (after capacity (.perform now (.create n) :: ts)).meetings = n :: rest ∧
        ∀ k ∈ rest, lastUse capacity m.id ts < lastUse capacity k.id ts) ∧
    (∀ now n, ((after capacity ts).create now n).1 = .error .alreadyExists →
      after capacity (.perform now (.create n) :: ts) = after capacity ts) ∧
    (∀ now op id, op.sought? = some id → (after capacity ts).find? id = none →
      ((after capacity ts).perform now op).1 = .error .notFound ∧
        after capacity (.perform now op :: ts) = after capacity ts) ∧
    (∀ now cutoff, (after capacity (.perform now (.deleteExpired cutoff) :: ts)).meetings =
      (after capacity ts).meetings.filter fun m => cutoff < m.expiresAt) ∧
    ∀ now n, ¬((after capacity ts).find? n.id).any (·.isVisibleAt now) →
      n ∈ (after capacity (.perform now (.create n) :: ts)).meetings := by
  refine ⟨keyed_after capacity ts, fun _ _ h => (find?_mem h).2, size_after_le room ts,
    recent_first room ts, ?_, fun _ _ => evict_oldest room, ?_, ?_, ?_, ?_⟩
  · intro t m hm
    by_cases hdrops : Turn.Drops m t
    · exact .inr (.inl hdrops)
    · by_cases hstrands : Turn.Strands (after capacity ts) m t
      · exact .inr (.inr hstrands)
      · exact .inl ((change_after room ts t).kept (keyed_after capacity ts) hm hdrops hstrands)
  · intro now n h
    by_cases hfree : ((after capacity ts).find? n.id).any (·.isVisibleAt now)
    · exact congrArg Prod.snd (create_of_held hfree)
    · rw [create_of_free hfree] at h
      cases h
  · intro now op id hop h
    have hperform : (after capacity ts).perform now op = (.error .notFound, after capacity ts) :=
      perform_of_absent hop h
    exact ⟨congrArg Prod.fst hperform, congrArg Prod.snd hperform⟩
  · intro now cutoff
    refine List.filter_congr fun m _ => ?_
    have hlive : ¬m.expiresAt ≤ cutoff ↔ cutoff < m.expiresAt := Int64.not_le
    simp only [Meeting.isExpiredAt, ← decide_not, hlive]
  · intro now n hfree
    change n ∈ ((after capacity ts).create now n).2.meetings
    rw [create_of_free hfree]
    exact mem_push (Nat.lt_of_lt_of_eq room (capacity_after capacity ts).symm) n

open Meeting.Sample in
/-- Of two meetings the one that was read since has to stay when a third comes. -/
theorem unread_evicted :
    0 < 2 ∧ (after 2 [.perform now (.create (ofSeed 2)), .perform now (.get (identifier 0)),
      .perform now (.create (ofSeed 1)), .perform now (.create (ofSeed 0))]).meetings =
        [ofSeed 2, ofSeed 0] := by
  have hbefore : (after 2 [.perform now (.get (identifier 0)),
      .perform now (.create (ofSeed 1)), .perform now (.create (ofSeed 0))]).meetings =
        [ofSeed 0, ofSeed 1] := by
    decide +kernel
  refine ⟨by decide, ?_⟩
  obtain ⟨-, -, -, -, -, hevict, -⟩ := loss_explained (by decide : 0 < 2)
    [.perform now (.get (identifier 0)), .perform now (.create (ofSeed 1)),
      .perform now (.create (ofSeed 0))]
  obtain ⟨rest, m, hsplit, hafter, -⟩ := hevict now (ofSeed 2) (by decide +kernel)
    (by rw [size, hbefore]; rfl)
  rw [hafter]
  rw [hbefore] at hsplit
  have hrest : rest = [ofSeed 0] := by
    have hdrop := congrArg List.dropLast hsplit
    rw [List.dropLast_concat] at hdrop
    exact hdrop.symm
  rw [hrest]

end Memory

end Rendezvous.Store
