import Rendezvous.Proofs.Store.Ledger
import Rendezvous.Proofs.Store.Memory

namespace Rendezvous.Store

/-- What a store in memory and a ledger know of an identifier at a time. -/
inductive Known (spent : List String) (now : Int64) (id : String) :
    Option Meeting → Option Meeting → Prop where
  | unknown : Known spent now id none none
  | held (m : Meeting) (hid : id ∈ spent) : Known spent now id (some m) (some m)
  | gone (m : Meeting) (hid : id ∈ spent) (hv : ¬m.isVisibleAt now) :
    Known spent now id none (some m)

namespace Known

variable {spent : List String} {now : Int64} {id : String} {x y : Option Meeting}

theorem mono (h : Known spent now id x y) {spent' : List String} (hsub : spent ⊆ spent') :
    Known spent' now id x y := by
  cases h with
  | unknown => exact .unknown
  | held m hid => exact .held m (hsub hid)
  | gone m hid hv => exact .gone m (hsub hid) hv

/-- What cannot be seen now cannot be seen later. -/
theorem later (h : Known spent now id x y) {now' : Int64} (hnow : now ≤ now') :
    Known spent now' id x y := by
  cases h with
  | unknown => exact .unknown
  | held m hid => exact .held m hid
  | gone m hid hv =>
    refine .gone m hid ?_
    intro hv'
    apply hv
    simp only [Meeting.isVisibleAt, Meeting.isExpiredAt, Bool.or_eq_true, Bool.not_eq_true',
      decide_eq_false_iff_not] at hv' ⊢
    rcases hv' with hlate | hcall
    · left
      intro hle
      exact hlate (Int64.le_trans hle hnow)
    · exact .inr hcall

theorem deleteExpired (h : Known spent now id x y) (cutoff : Int64) :
    Known spent now id (x.filter fun m => !m.isExpiredAt cutoff)
      (y.filter fun m => !m.isExpiredAt cutoff) := by
  cases h with
  | unknown => exact .unknown
  | held m hid =>
    rw [Option.filter_some]
    split
    · exact .held m hid
    · exact .unknown
  | gone m hid hv =>
    rw [Option.filter_none, Option.filter_some]
    split
    · exact .gone m hid hv
    · exact .unknown

end Known

/-- That a store in memory and a ledger hold the same at a time, as far as can be seen. -/
structure Corresponds (spent : List String) (now : Int64) (s : Memory) (l : Ledger) : Prop where
  keyed : s.Keyed
  known : ∀ id, Known spent now id (s.find? id) (l.meetings.get? id)
  chats : ∀ id, s.chats.get? id = l.chats.get? id ∨ id ∈ spent ∧ s.find? id = none

namespace Corresponds

variable {spent : List String} {now : Int64} {s : Memory} {l : Ledger} {id : String} {m : Meeting}

theorem empty (now : Int64) (capacity : Nat) : Corresponds [] now (.empty capacity) .empty where
  keyed := List.nodup_nil
  known _ := .unknown
  chats _ := .inl rfl

theorem mono (h : Corresponds spent now s l) {spent' : List String} (hsub : spent ⊆ spent') :
    Corresponds spent' now s l where
  keyed := h.keyed
  known id := (h.known id).mono hsub
  chats id := (h.chats id).imp_right fun hid => ⟨hsub hid.1, hid.2⟩

theorem later (h : Corresponds spent now s l) {now' : Int64} (hnow : now ≤ now') :
    Corresponds spent now' s l where
  keyed := h.keyed
  known id := (h.known id).later hnow
  chats := h.chats

theorem held (h : Corresponds spent now s l) (hm : s.find? id = some m) :
    id ∈ spent ∧ l.meetings.get? id = some m := by
  have hknown := h.known id
  rw [hm] at hknown
  generalize l.meetings.get? id = y at hknown ⊢
  cases hknown with
  | held _ hid => exact ⟨hid, rfl⟩

theorem gone (h : Corresponds spent now s l) (hm : l.meetings.get? id = some m)
    (hnone : s.find? id = none) : id ∈ spent ∧ ¬m.isVisibleAt now := by
  have hknown := h.known id
  rw [hm, hnone] at hknown
  cases hknown with
  | gone _ hid hv => exact ⟨hid, hv⟩

theorem find?_eq_none (h : Corresponds spent now s l) (hm : l.meetings.get? id = none) :
    s.find? id = none := by
  cases hfind : s.find? id with
  | none => rfl
  | some n =>
    have hheld := (h.held hfind).2
    rw [hm] at hheld
    cases hheld

theorem find?_of_visible (h : Corresponds spent now s l) (hm : l.meetings.get? id = some m)
    (hv : m.isVisibleAt now) : s.find? id = some m := by
  cases hfind : s.find? id with
  | none => exact absurd hv (h.gone hm hfind).2
  | some n => exact (h.held hfind).2.symm.trans hm

theorem chats_of_held (h : Corresponds spent now s l) (hm : s.find? id = some m) :
    s.chats.get? id = l.chats.get? id := by
  rcases h.chats id with heq | ⟨_, hnone⟩
  · exact heq
  · rw [hm] at hnone
    cases hnone

/-- Nothing is known of an identifier that is not spent but a chat. -/
theorem of_not_mem (h : Corresponds spent now s l) (hid : id ∉ spent) :
    s.find? id = none ∧ l.meetings.get? id = none ∧ s.chats.get? id = l.chats.get? id := by
  have hchats : s.chats.get? id = l.chats.get? id := by
    rcases h.chats id with heq | ⟨hspent, _⟩
    · exact heq
    · exact absurd hspent hid
  have hknown := h.known id
  generalize s.find? id = x at hknown ⊢
  generalize l.meetings.get? id = y at hknown ⊢
  cases hknown with
  | unknown => exact ⟨rfl, rfl, hchats⟩
  | held _ hspent => exact absurd hspent hid
  | gone _ hspent => exact absurd hspent hid

/-- What is known of one identifier changes. -/
theorem set (h : Corresponds spent now s l) {s' : Memory} {l' : Ledger} {x y : Option Meeting}
    (hkeyed : s'.Keyed) (hfind : ∀ id', s'.find? id' = if id' = id then x else s.find? id')
    (hget : ∀ id', l'.meetings.get? id' = if id' = id then y else l.meetings.get? id')
    (hknown : Known spent now id x y) (hs : s'.chats = s.chats) (hl : l'.chats = l.chats)
    (hchats : s.chats.get? id = l.chats.get? id ∨ id ∈ spent ∧ x = none) :
    Corresponds spent now s' l' := by
  refine ⟨hkeyed, ?_, ?_⟩
  · intro id'
    rw [hfind, hget]
    by_cases heq : id' = id
    · rw [if_pos heq, if_pos heq, heq]
      exact hknown
    · rw [if_neg heq, if_neg heq]
      exact h.known id'
  · intro id'
    rw [hfind, hs, hl]
    by_cases heq : id' = id
    · rw [if_pos heq, heq]
      exact hchats
    · rw [if_neg heq]
      exact h.chats id'

/-- A reading puts the meeting in front. -/
theorem promote (h : Corresponds spent now s l) (hm : s.find? id = some m) :
    Corresponds spent now (s.promote m) l := by
  obtain ⟨_, rfl⟩ := Memory.find?_mem hm
  obtain ⟨hid, hledger⟩ := h.held hm
  refine h.set (h.keyed.promote m) (Memory.find?_promote m) ?_ (.held m hid) rfl rfl
    (.inl (h.chats_of_held hm))
  intro id'
  split
  · next heq => rw [heq, hledger]
  · rfl

/-- A reading drops a meeting that cannot be seen any more. -/
theorem pop (h : Corresponds spent now s l) (hm : s.find? id = some m)
    (hv : ¬m.isVisibleAt now) : Corresponds spent now (s.pop id) l := by
  obtain ⟨hid, hledger⟩ := h.held hm
  have hkeyed : (s.pop id).Keyed := h.keyed.of_sublist List.filter_sublist
  refine h.set hkeyed (Memory.find?_pop · id) ?_ (.gone m hid hv) rfl rfl (.inr ⟨hid, rfl⟩)
  intro id'
  split
  · next heq => rw [heq, hledger]
  · rfl

/-- A new meeting is held by both. -/
theorem create (h : Corresponds spent now s l) (hroom : s.size < s.capacity)
    (hspent : m.id ∈ spent) (hchat : s.chats.get? m.id = l.chats.get? m.id) :
    Corresponds spent now (s.push m) { l with meetings := l.meetings.insert m.id m } := by
  rw [Memory.push_of_lt hroom]
  exact h.set (h.keyed.promote m) (Memory.find?_promote m)
    (fun id' => Dictionary.get?_insert _ _ id' m) (.held m hspent) rfl rfl (.inl hchat)

/-- A note is left in both. -/
theorem modify (h : Corresponds spent now s l) (hm : s.find? id = some m) {f : Meeting → Meeting}
    (hf : (f m).id = m.id) : Corresponds spent now (s.promote (f m))
      { l with meetings := l.meetings.insert id (f m) } := by
  obtain ⟨_, rfl⟩ := Memory.find?_mem hm
  obtain ⟨hid, _⟩ := h.held hm
  have hfind : ∀ id', (s.promote (f m)).find? id' =
      if id' = m.id then some (f m) else s.find? id' := by
    intro id'
    rw [Memory.find?_promote, hf]
  exact h.set (h.keyed.promote (f m)) hfind (fun id' => Dictionary.get?_insert _ _ id' (f m))
    (.held (f m) hid) rfl rfl (.inl (h.chats_of_held hm))

/-- A meeting goes from both, and with it the link to its chat. -/
theorem delete (h : Corresponds spent now s l) (id : String) :
    Corresponds spent now { s.pop id with chats := s.chats.erase id }
      ⟨l.meetings.erase id, l.chats.erase id⟩ := by
  have hfind : ∀ id', ({ s.pop id with chats := s.chats.erase id } : Memory).find? id' =
      if id' = id then none else s.find? id' :=
    fun id' => Memory.find?_pop id' id
  refine ⟨h.keyed.of_sublist List.filter_sublist, ?_, ?_⟩
  · intro id'
    rw [hfind, Dictionary.get?_erase]
    split
    · exact .unknown
    · exact h.known id'
  · intro id'
    rw [hfind, Dictionary.get?_erase, Dictionary.get?_erase]
    by_cases heq : id' = id
    · exact .inl (by rw [if_pos heq, if_pos heq])
    · rw [if_neg heq, if_neg heq, if_neg heq]
      exact h.chats id'

/-- What has expired by any time goes from both, so far as it has not gone from the store. -/
theorem deleteExpired (h : Corresponds spent now s l) (cutoff : Int64) :
    Corresponds spent now (s.deleteExpired cutoff).2 (l.deleteExpired cutoff).2 := by
  have hget : ∀ id, (l.deleteExpired cutoff).2.meetings.get? id =
      (l.meetings.get? id).filter fun m => !m.isExpiredAt cutoff :=
    fun id => Dictionary.get?_filter _ _ id
  have hchats : ∀ id, (l.deleteExpired cutoff).2.chats.get? id =
      if l.isExpiredAt cutoff id then none else l.chats.get? id := by
    intro id
    refine (Dictionary.get?_filter l.chats _ id).trans ?_
    cases l.isExpiredAt cutoff id <;> cases l.chats.get? id <;> rfl
  refine ⟨h.keyed.of_sublist List.filter_sublist, ?_, ?_⟩
  · intro id
    rw [h.keyed.find?_deleteExpired, hget]
    exact (h.known id).deleteExpired cutoff
  · intro id
    rw [h.keyed.chats_deleteExpired, hchats, h.keyed.find?_deleteExpired, Ledger.isExpiredAt]
    cases hfind : s.find? id with
    | some m =>
      rw [h.chats_of_held hfind, (h.held hfind).2]
      exact .inl rfl
    | none =>
      cases hm : l.meetings.get? id with
      | some m => exact .inr ⟨(h.gone hm hfind).1, rfl⟩
      | none => exact (h.chats id).imp_right fun hid => ⟨hid.1, rfl⟩

theorem linkChat (h : Corresponds spent now s l) (id : String) (link : ChatLink) :
    Corresponds spent now (s.linkChat id link) (l.linkChat id link) := by
  refine ⟨h.keyed, h.known, ?_⟩
  intro id'
  change (s.chats.insert id link).get? id' = (l.chats.insert id link).get? id' ∨ _
  rw [Dictionary.get?_insert, Dictionary.get?_insert]
  split
  · exact .inl rfl
  · exact h.chats id'

theorem unlinkChat (h : Corresponds spent now s l) (id : String) :
    Corresponds spent now (s.unlinkChat id).2 (l.unlinkChat id) := by
  refine ⟨h.keyed, h.known, ?_⟩
  intro id'
  change (s.chats.erase id).get? id' = (l.chats.erase id).get? id' ∨ _
  rw [Dictionary.get?_erase, Dictionary.get?_erase]
  split
  · exact .inl rfl
  · exact h.chats id'

end Corresponds

end Rendezvous.Store
