import Rendezvous.Proofs.Store.History

namespace Rendezvous.Store

structure Slot where
  meeting? : Option Meeting
  link? : Option ChatLink
deriving DecidableEq

def Operation.about? : Operation → Option String
  | create m => some m.id
  | get id | delete id | setCall id .. | setSatisfaction id _ | chatLink id => some id
  | deleteExpired _ | ping => none

namespace Slot

def modify (t : Slot) (f : Meeting → Meeting) : Except Fault Unit × Slot :=
  match t.meeting? with
  | none => (.error .notFound, t)
  | some m => (.ok (), { t with meeting? := some (f m) })

def swept (t : Slot) (cutoff : Int64) : Slot :=
  if t.meeting?.any (·.isExpiredAt cutoff) then ⟨none, none⟩ else t

/-- What an operation does with a slot, that of the meeting which it is about if there is one. -/
def perform (t : Slot) (now : Int64) : (op : Operation) → op.Answer × Slot
  | .create m =>
    if t.meeting?.any (·.isVisibleAt now) then (.error .alreadyExists, t)
    else (.ok (), { t with meeting? := some m })
  | .get _ =>
    match t.meeting? with
    | none => (.error .notFound, t)
    | some m =>
      if m.isVisibleAt now then (.ok m, t) else (.error .notFound, { t with meeting? := none })
  | .delete _ => if t.meeting?.isSome then (.ok (), ⟨none, none⟩) else (.error .notFound, t)
  | .setCall _ callId bridged => t.modify fun m => { m with callId := some callId, bridged }
  | .setSatisfaction _ value => t.modify fun m => { m with satisfaction := some value }
  | .deleteExpired cutoff =>
    (.ok (if t.meeting?.any (·.isExpiredAt cutoff) then 1 else 0), t.swept cutoff)
  | .chatLink _ => (.ok t.link?, t)
  | .ping => (.ok (), t)

end Slot

namespace Memory

variable {s : Memory} {now : Int64}

def slot (s : Memory) (id : String) : Slot := ⟨s.find? id, s.chats.get? id⟩

/-- That the slot of a meeting, and no other, has been changed to something else. -/
def Changes (s s' : Memory) (id : String) (t : Slot) : Prop :=
  ∀ id', s'.slot id' = if id' = id then t else s.slot id'

theorem changes_of_eq {s' : Memory} {id : String} {t : Slot}
    (meetings : ∀ id', s'.find? id' = if id' = id then t.meeting? else s.find? id')
    (links : ∀ id', s'.chats.get? id' = if id' = id then t.link? else s.chats.get? id') :
    s.Changes s' id t := by
  intro id'
  rw [slot, meetings, links]
  split <;> rfl

theorem ite_eq_apply {α : Type} (f : String → α) (id id' : String) :
    f id' = if id' = id then f id else f id' := by
  split
  · next h => rw [h]
  · rfl

theorem changes_self (s : Memory) (id : String) : s.Changes s id (s.slot id) :=
  changes_of_eq (ite_eq_apply s.find? id) (ite_eq_apply s.chats.get? id)

theorem changes_promote {id : String} {m : Meeting} (h : m.id = id) :
    s.Changes (s.promote m) id { s.slot id with meeting? := some m } := by
  subst h
  exact changes_of_eq (find?_promote m) (ite_eq_apply s.chats.get? m.id)

theorem changes_pop (id : String) :
    s.Changes (s.pop id) id { s.slot id with meeting? := none } :=
  changes_of_eq (fun id' => find?_pop id' id) (ite_eq_apply s.chats.get? id)

theorem changes_delete (id : String) :
    s.Changes { s.pop id with chats := s.chats.erase id } id ⟨none, none⟩ :=
  changes_of_eq (fun id' => find?_pop id' id) fun id' => s.chats.get?_erase id id'

theorem changes_linkChat (id : String) (link : ChatLink) :
    s.Changes (s.linkChat id link) id { s.slot id with link? := some link } :=
  changes_of_eq (ite_eq_apply s.find? id) fun id' => s.chats.get?_insert id id' link

theorem changes_unlinkChat (id : String) :
    s.Changes (s.unlinkChat id).2 id { s.slot id with link? := none } :=
  changes_of_eq (ite_eq_apply s.find? id) fun id' => s.chats.get?_erase id id'

theorem modify_slot (id : String) {f : Meeting → Meeting} (hf : ∀ m, (f m).id = m.id) :
    (s.modify id f).1 = ((s.slot id).modify f).1 ∧
      s.Changes (s.modify id f).2 id ((s.slot id).modify f).2 := by
  cases hfind : s.find? id with
  | none =>
    have hslot : (s.slot id).modify f = (.error .notFound, s.slot id) := by
      simp only [Slot.modify, slot, hfind]
    rw [modify_of_find?_eq_none hfind, hslot]
    exact ⟨rfl, changes_self s id⟩
  | some m =>
    have hslot : (s.slot id).modify f = (.ok (), { s.slot id with meeting? := some (f m) }) := by
      simp only [Slot.modify, slot, hfind]
    rw [modify_of_find? hfind, hslot]
    exact ⟨rfl, changes_promote ((hf m).trans (find?_mem hfind).2)⟩

/-- A meeting whose place is free, or that is held already, needs no room to be made. -/
theorem push_of_fits {m : Meeting} (h : (s.without m.id).length < s.capacity) :
    s.push m = s.promote m := by
  simp only [push, promote, List.take_of_length_le (l := m :: s.without m.id) h]

/-- That a meeting which an operation makes finds its place free, or its own meeting in it. -/
def HasRoom (s : Memory) (now : Int64) (op : Operation) : Prop :=
  ∀ m, op = .create m → (s.create now m).1.isOk → (s.without m.id).length < s.capacity

theorem create_slot (m : Meeting) :
    (s.create now m).1 = ((s.slot m.id).perform now (.create m)).1 ∧
      (s.HasRoom now (.create m) →
        s.Changes (s.create now m).2 m.id ((s.slot m.id).perform now (.create m)).2) := by
  by_cases h : (s.find? m.id).any (·.isVisibleAt now)
  · have hslot : (s.slot m.id).perform now (.create m) = (.error .alreadyExists, s.slot m.id) :=
      if_pos h
    rw [create_of_held h, hslot]
    exact ⟨rfl, fun _ => changes_self s m.id⟩
  · have hslot : (s.slot m.id).perform now (.create m) =
        (.ok (), { s.slot m.id with meeting? := some m }) := if_neg h
    have hcreate := create_of_free h
    rw [hcreate, hslot]
    refine ⟨rfl, fun room => ?_⟩
    have fits : (s.without m.id).length < s.capacity := room m rfl (by rw [hcreate]; rfl)
    dsimp only
    rw [push_of_fits fits]
    exact changes_promote rfl

theorem get_slot (id : String) :
    (s.get now id).1 = ((s.slot id).perform now (.get id)).1 ∧
      s.Changes (s.get now id).2 id ((s.slot id).perform now (.get id)).2 := by
  cases hfind : s.find? id with
  | none =>
    have hslot : (s.slot id).perform now (.get id) = (.error .notFound, s.slot id) := by
      simp only [Slot.perform, slot, hfind]
    rw [get_of_find?_eq_none hfind, hslot]
    exact ⟨rfl, changes_self s id⟩
  | some m =>
    obtain ⟨_, rfl⟩ := find?_mem hfind
    by_cases hv : m.isVisibleAt now
    · have hslot : (s.slot m.id).perform now (.get m.id) =
          (.ok m, { s.slot m.id with meeting? := some m }) := by
        simp only [Slot.perform, slot, hfind, if_pos hv]
      rw [get_of_visible hfind hv, hslot]
      exact ⟨rfl, changes_promote rfl⟩
    · have hslot : (s.slot m.id).perform now (.get m.id) =
          (.error .notFound, { s.slot m.id with meeting? := none }) := by
        simp only [Slot.perform, slot, hfind, if_neg hv]
      rw [get_of_not_visible hfind hv, hslot]
      exact ⟨rfl, changes_pop m.id⟩

theorem delete_slot (id : String) :
    (s.delete id).1 = ((s.slot id).perform now (.delete id)).1 ∧
      s.Changes (s.delete id).2 id ((s.slot id).perform now (.delete id)).2 := by
  cases hfind : s.find? id with
  | none =>
    have hslot : (s.slot id).perform now (.delete id) = (.error .notFound, s.slot id) := by
      simp [Slot.perform, slot, hfind]
    rw [delete_of_find?_eq_none hfind, hslot]
    exact ⟨rfl, changes_self s id⟩
  | some m =>
    have hslot : (s.slot id).perform now (.delete id) = (.ok (), ⟨none, none⟩) := by
      simp [Slot.perform, slot, hfind]
    rw [delete_of_find? hfind, hslot]
    exact ⟨rfl, changes_delete id⟩

/-- An operation on one meeting does to a store what it does to the slot of the meeting. -/
theorem perform_slot {op : Operation} {id : String} (hop : op.about? = some id) :
    (s.perform now op).1 = ((s.slot id).perform now op).1 ∧
      (s.HasRoom now op →
        s.Changes (s.perform now op).2 id ((s.slot id).perform now op).2) := by
  -- only a creation needs room
  have roomless {p q r : Prop} (h : p ∧ q) : p ∧ (r → q) := ⟨h.1, fun _ => h.2⟩
  cases op with
  | deleteExpired | ping => cases hop
  | create m => cases hop; exact create_slot m
  | get => cases hop; exact roomless (get_slot id)
  | delete => cases hop; exact roomless (delete_slot id)
  | setCall => cases hop; exact roomless (modify_slot id fun _ => rfl)
  | setSatisfaction => cases hop; exact roomless (modify_slot id fun _ => rfl)
  | chatLink => cases hop; exact roomless ⟨rfl, changes_self s id⟩

/-- A sweep does the same to each slot. -/
theorem Keyed.slot_deleteExpired (h : s.Keyed) (cutoff : Int64) (id : String) :
    (s.deleteExpired cutoff).2.slot id = (s.slot id).swept cutoff := by
  change Slot.mk ((s.deleteExpired cutoff).2.find? id)
    ((s.deleteExpired cutoff).2.chats.get? id) = _
  rw [h.find?_deleteExpired, h.chats_deleteExpired]
  cases hfind : s.find? id with
  | none => simp [Slot.swept, slot, hfind]
  | some m =>
    by_cases hexpired : m.isExpiredAt cutoff
    · simp [Slot.swept, slot, hfind, hexpired]
    · simp [Slot.swept, slot, hfind, hexpired]

/-- That of two stores with the same capacity the second has no meeting but one, and that as the
first has it. -/
structure Mirrors (id : String) (s t : Memory) : Prop where
  keyed : s.Keyed
  keyed' : t.Keyed
  capacity : t.capacity = s.capacity
  slot : t.slot id = s.slot id
  only : ∀ id', id' ≠ id → t.find? id' = none

namespace Mirrors

variable {t : Memory} {id : String}

theorem empty (id : String) (capacity : Nat) : Mirrors id (.empty capacity) (.empty capacity) where
  keyed := List.nodup_nil
  keyed' := List.nodup_nil
  capacity := rfl
  slot := rfl
  only _ _ := rfl

/-- The same is done to the one meeting. -/
theorem change (h : Mirrors id s t) {s' t' : Memory} {r : Slot} (hs : s.Changes s' id r)
    (ht : t.Changes t' id r) (keyed : s'.Keyed) (keyed' : t'.Keyed)
    (capacity : t'.capacity = s'.capacity) : Mirrors id s' t' where
  keyed := keyed
  keyed' := keyed'
  capacity := capacity
  slot := by rw [ht, hs, if_pos rfl, if_pos rfl]
  only id' hne := by
    have hslot := ht id'
    rw [if_neg hne] at hslot
    exact (congrArg Slot.meeting? hslot).trans (h.only id' hne)

/-- Something is done to another meeting. -/
theorem change_other (h : Mirrors id s t) {s' : Memory} {id' : String} {r : Slot}
    (hs : s.Changes s' id' r) (hne : id' ≠ id) (keyed : s'.Keyed)
    (capacity : s'.capacity = s.capacity) : Mirrors id s' t where
  keyed := keyed
  keyed' := h.keyed'
  capacity := h.capacity.trans capacity.symm
  slot := by rw [hs, if_neg hne.symm, h.slot]
  only := h.only

/-- Where a meeting finds room among others, it finds room on its own. -/
theorem hasRoom (h : Mirrors id s t) {op : Operation} (hop : op.about? = some id)
    (room : s.HasRoom now op) : t.HasRoom now op := by
  rintro m rfl hok
  obtain rfl : m.id = id := Option.some.inj hop
  have hs : (s.create now m).1.isOk := by
    rw [(create_slot m).1] at hok ⊢
    rwa [h.slot] at hok
  -- the one meeting may be held already, and its place is free then
  have hnone : t.without m.id = [] := by
    refine List.filter_eq_nil_iff.mpr fun n hn => ?_
    have hid : n.id = m.id := by
      by_contra hne
      exact find?_eq_none.mp (h.only n.id hne) n hn rfl
    simp [hid]
  rw [hnone, h.capacity]
  exact Nat.zero_lt_of_lt (room m rfl hs)

theorem perform (h : Mirrors id s t) {op : Operation} (hop : op.about? = some id)
    (room : s.HasRoom now op) : (t.perform now op).1 = (s.perform now op).1 ∧
      Mirrors id (s.perform now op).2 (t.perform now op).2 := by
  have hs : (s.perform now op).1 = ((s.slot id).perform now op).1 := (perform_slot hop).1
  have ht : (t.perform now op).1 = ((t.slot id).perform now op).1 := (perform_slot hop).1
  have changes : t.Changes (t.perform now op).2 id ((t.slot id).perform now op).2 :=
    (perform_slot hop).2 (h.hasRoom hop room)
  rw [h.slot] at ht changes
  refine ⟨ht.trans hs.symm, h.change ((perform_slot hop).2 room) changes (h.keyed.perform op)
    (h.keyed'.perform op) ?_⟩
  rw [capacity_perform, capacity_perform, h.capacity]

theorem perform_other (h : Mirrors id s t) {op : Operation} {id' : String}
    (hop : op.about? = some id') (hne : id' ≠ id) (room : s.HasRoom now op) :
    Mirrors id (s.perform now op).2 t :=
  h.change_other ((perform_slot hop).2 room) hne (h.keyed.perform op) (capacity_perform ..)

theorem deleteExpired (h : Mirrors id s t) (cutoff : Int64) :
    Mirrors id (s.deleteExpired cutoff).2 (t.deleteExpired cutoff).2 where
  keyed := h.keyed.of_sublist List.filter_sublist
  keyed' := h.keyed'.of_sublist List.filter_sublist
  capacity := h.capacity
  slot := by rw [h.keyed.slot_deleteExpired, h.keyed'.slot_deleteExpired, h.slot]
  only id' hne := by
    rw [h.keyed'.find?_deleteExpired, h.only id' hne]
    rfl

theorem linkChat (h : Mirrors id s t) (link : ChatLink) :
    Mirrors id (s.linkChat id link) (t.linkChat id link) := by
  have ht := changes_linkChat (s := t) id link
  rw [h.slot] at ht
  exact h.change (changes_linkChat id link) ht h.keyed h.keyed' h.capacity

theorem linkChat_other (h : Mirrors id s t) {id' : String} (hne : id' ≠ id) (link : ChatLink) :
    Mirrors id (s.linkChat id' link) t :=
  h.change_other (changes_linkChat id' link) hne h.keyed rfl

theorem unlinkChat (h : Mirrors id s t) :
    Mirrors id (s.unlinkChat id).2 (t.unlinkChat id).2 := by
  have ht := changes_unlinkChat (s := t) id
  rw [h.slot] at ht
  exact h.change (changes_unlinkChat id) ht h.keyed h.keyed' h.capacity

theorem unlinkChat_other (h : Mirrors id s t) {id' : String} (hne : id' ≠ id) :
    Mirrors id (s.unlinkChat id').2 t :=
  h.change_other (changes_unlinkChat id') hne h.keyed rfl

end Mirrors

end Memory

end Rendezvous.Store
