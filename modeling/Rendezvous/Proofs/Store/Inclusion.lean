import Rendezvous.Proofs.Store.Retention

namespace Rendezvous.Store

def Turn.created? : Turn → Option String
  | perform _ (.create m) => some m.id
  | _ => none

/-- Whether each meeting that is to be stored in some turns has an identifier of its own. -/
def CreatedOnce (ts : List Turn) : Prop := (ts.filterMap Turn.created?).Nodup

theorem CreatedOnce.tail {t : Turn} {ts : List Turn} (h : CreatedOnce (t :: ts)) :
    CreatedOnce ts :=
  h.sublist ((List.sublist_cons_self t ts).filterMap _)

/-- What only the longer of two lists has may fill the places that it has more. -/
theorem sublist_take {α : Type} {xs ys : List α} {m n : Nat} (order : xs.Sublist ys)
    (surplus : ys.length + m ≤ xs.length + n) : (xs.take m).Sublist (ys.take n) := by
  have hsplit : xs.Sublist (ys.take n ++ ys.drop n) := by rwa [List.take_append_drop]
  obtain ⟨front, rest, rfl, hfront, hrest⟩ := List.sublist_append_iff.mp hsplit
  have hlength := hrest.length_le
  rw [List.length_drop] at hlength
  rw [List.length_append] at surplus
  -- what lies beyond the places of the longer list lies beyond those of the shorter
  have htake : (front ++ rest).take m = front.take m := by
    rcases Nat.lt_or_ge front.length m with hm | hm
    · have hnil : rest = [] := List.length_eq_zero_iff.mp (by omega)
      rw [hnil, List.append_nil]
    · exact List.take_append_of_le_length hm
  rw [htake]
  exact (List.take_sublist m front).trans hfront

namespace Memory

/-- That a store holds all that a smaller one holds, and not much beyond it. -/
structure Includes (large small : Memory) : Prop where
  order : small.meetings.Sublist large.meetings
  surplus : large.size + small.capacity ≤ small.size + large.capacity

section

variable {large small : Memory}

theorem Includes.find? (h : large.Includes small) (hk : large.Keyed) {id : String} {m : Meeting}
    (hm : small.find? id = some m) : large.find? id = some m := by
  obtain ⟨hmem, rfl⟩ := find?_mem hm
  exact hk.find?_eq_some (h.order.subset hmem)

theorem Includes.find?_eq_none (h : large.Includes small) {id : String}
    (hnone : large.find? id = none) : small.find? id = none :=
  Memory.find?_eq_none.mpr fun m hm => Memory.find?_eq_none.mp hnone m (h.order.subset hm)

/-- Of what goes, the larger store loses at least as many meetings as the smaller. -/
theorem Includes.filter (h : large.Includes small) (p : Meeting → Bool)
    (chats chats' : Dictionary ChatLink) :
    Includes { large with meetings := large.meetings.filter p, chats }
      { small with meetings := small.meetings.filter p, chats := chats' } := by
  refine ⟨h.order.filter p, ?_⟩
  have hlost : small.meetings.countP (fun m => ¬p m) ≤ large.meetings.countP (fun m => ¬p m) :=
    h.order.countP_le
  have hlarge : large.size = _ := List.length_eq_countP_add_countP p
  have hsmall : small.size = _ := List.length_eq_countP_add_countP p
  have hsurplus := h.surplus
  simp only [size, ← List.countP_eq_length_filter] at hlarge hsmall hsurplus ⊢
  omega

theorem Includes.pop (h : large.Includes small) (id : String) :
    (large.pop id).Includes (small.pop id) :=
  h.filter (·.id != id) _ _

/-- A meeting that both stores hold, or its new state, comes to the front of both. -/
theorem Includes.promote (h : large.Includes small) (m : Meeting) :
    (large.promote m).Includes (small.promote m) := by
  obtain ⟨order, surplus⟩ := h.pop m.id
  refine ⟨order.cons_cons m, ?_⟩
  simp only [size, Memory.promote, Memory.pop, List.length_cons] at surplus ⊢
  omega

/-- A meeting that only the larger store holds comes to the front of that, past the others. -/
theorem Includes.promote_large (h : large.Includes small) {id : String} {m n : Meeting}
    (gone : small.find? id = none) (held : large.find? id = some n) (hid : m.id = id) :
    (large.promote m).Includes small := by
  subst hid
  have hsmall : small.without m.id = small.meetings :=
    congrArg meetings (pop_of_find?_eq_none gone)
  have hlength := length_without_lt held
  have hsurplus := h.surplus
  refine ⟨?_, ?_⟩
  · change small.meetings.Sublist (m :: large.without m.id)
    rw [← hsmall]
    exact (h.order.filter _).cons m
  · have hsize : (large.promote m).size = (large.without m.id).length + 1 := rfl
    change (large.promote m).size + small.capacity ≤ small.size + large.capacity
    omega

theorem Includes.pop_large (h : large.Includes small) {id : String}
    (gone : small.find? id = none) : (large.pop id).Includes small := by
  rw [← pop_of_find?_eq_none gone]
  exact h.pop id

/-- A new meeting is put in front of both stores, and each drops what is too much. -/
theorem Includes.push (h : large.Includes small) (m : Meeting) :
    (large.push m).Includes (small.push m) := by
  obtain ⟨order, surplus⟩ := h.promote m
  refine ⟨sublist_take order surplus, ?_⟩
  have hlarge : (large.push m).size = min large.capacity (large.promote m).size :=
    List.length_take
  have hsmall : (small.push m).size = min small.capacity (small.promote m).size :=
    List.length_take
  change (large.push m).size + small.capacity ≤ (small.push m).size + large.capacity
  change (large.promote m).size + small.capacity ≤ (small.promote m).size + large.capacity
    at surplus
  omega

theorem Includes.modify (h : large.Includes small) (hk : large.Keyed) (id : String)
    {f : Meeting → Meeting} (hf : ∀ m, (f m).id = m.id) :
    (large.modify id f).2.Includes (small.modify id f).2 := by
  cases hsmall : small.find? id with
  | some m =>
    rw [modify_of_find? hsmall, modify_of_find? (h.find? hk hsmall)]
    exact h.promote (f m)
  | none =>
    rw [modify_of_find?_eq_none hsmall]
    cases hlarge : large.find? id with
    | none => rwa [modify_of_find?_eq_none hlarge]
    | some m =>
      rw [modify_of_find? hlarge]
      exact h.promote_large hsmall hlarge ((hf m).trans (find?_mem hlarge).2)

theorem Includes.get (h : large.Includes small) (hk : large.Keyed) (now : Int64) (id : String) :
    (large.get now id).2.Includes (small.get now id).2 := by
  cases hsmall : small.find? id with
  | some m =>
    have hlarge := h.find? hk hsmall
    by_cases hv : m.isVisibleAt now
    · rw [get_of_visible hsmall hv, get_of_visible hlarge hv]
      exact h.promote m
    · rw [get_of_not_visible hsmall hv, get_of_not_visible hlarge hv]
      exact h.pop id
  | none =>
    rw [get_of_find?_eq_none hsmall]
    cases hlarge : large.find? id with
    | none => rwa [get_of_find?_eq_none hlarge]
    | some m =>
      by_cases hv : m.isVisibleAt now
      · rw [get_of_visible hlarge hv]
        exact h.promote_large hsmall hlarge (find?_mem hlarge).2
      · rw [get_of_not_visible hlarge hv]
        exact h.pop_large hsmall

theorem Includes.delete (h : large.Includes small) (hk : large.Keyed) (id : String) :
    (large.delete id).2.Includes (small.delete id).2 := by
  cases hsmall : small.find? id with
  | some m =>
    rw [delete_of_find? hsmall, delete_of_find? (h.find? hk hsmall)]
    exact h.filter (·.id != id) _ _
  | none =>
    rw [delete_of_find?_eq_none hsmall]
    cases hlarge : large.find? id with
    | none => rwa [delete_of_find?_eq_none hlarge]
    | some m =>
      rw [delete_of_find? hlarge]
      obtain ⟨order, surplus⟩ := h.pop_large hsmall
      exact ⟨order, surplus⟩

/-- What is done to both stores keeps the one in the other, if no meeting is stored anew that the
larger may hold and the smaller may not. -/
theorem Includes.apply (h : large.Includes small) (hk : large.Keyed) {t : Turn}
    (fresh : ∀ id, t.created? = some id → large.find? id = none) :
    (t.apply large).Includes (t.apply small) := by
  cases t with
  | linkChat | unlinkChat => exact ⟨h.order, h.surplus⟩
  | perform now op =>
    cases op with
    | create m =>
      have hlarge := fresh m.id rfl
      have hsmall := h.find?_eq_none hlarge
      change (large.create now m).2.Includes (small.create now m).2
      rw [create_of_free (by simp [hlarge]), create_of_free (by simp [hsmall])]
      exact h.push m
    | get id => exact h.get hk now id
    | delete id => exact h.delete hk id
    | setCall id callId bridged => exact h.modify hk id fun _ => rfl
    | setSatisfaction id value => exact h.modify hk id fun _ => rfl
    | deleteExpired cutoff => exact h.filter (fun m => !m.isExpiredAt cutoff) _ _
    | chatLink | ping => exact h

end

variable {capacity : Nat} {ts : List Turn}

theorem mem_created?_of_mem {m : Meeting} (h : m ∈ (after capacity ts).meetings) :
    m.id ∈ ts.filterMap Turn.created? := by
  induction ts generalizing m with
  | nil => cases h
  | cons t ts ih =>
    have later {id : String} (hid : id ∈ ts.filterMap Turn.created?) :
        id ∈ (t :: ts).filterMap Turn.created? :=
      ((List.sublist_cons_self t ts).filterMap _).subset hid
    cases t with
    | linkChat | unlinkChat => exact later (ih h)
    | perform now op =>
      rcases mem_perform h with ⟨n, hn, rfl⟩ | hcreated
      · rw [Exchange.id_effect]
        exact later (ih hn)
      · obtain rfl : op = .create m := Question.store.inj (congrArg Exchange.question hcreated)
        exact List.mem_cons_self

theorem find?_eq_none_of_createdOnce {t : Turn} (once : CreatedOnce (t :: ts)) {id : String}
    (h : t.created? = some id) : (after capacity ts).find? id = none := by
  refine find?_eq_none.mpr fun m hm hid => ?_
  unfold CreatedOnce at once
  rw [List.filterMap_cons_some h, List.nodup_cons] at once
  exact once.1 (hid ▸ mem_created?_of_mem hm)

theorem includes_after {small large : Nat} (wider : small ≤ large) (once : CreatedOnce ts) :
    (after large ts).Includes (after small ts) := by
  induction ts with
  | nil => exact ⟨List.Sublist.refl [], Nat.add_le_add_left wider 0⟩
  | cons t ts ih =>
    exact (ih once.tail).apply (keyed_after large ts) fun id hid =>
      find?_eq_none_of_createdOnce once hid

/-- An operation that asks for a meeting answers from what is found. -/
theorem perform_of_find?_eq {s s' : Memory} {now : Int64} {op : Operation} {id : String}
    (hop : op.sought? = some id) (h : s.find? id = s'.find? id) :
    (s.perform now op).1 = (s'.perform now op).1 := by
  cases hfind : s'.find? id with
  | none => rw [perform_of_absent hop (h.trans hfind), perform_of_absent hop hfind]
  | some m =>
    have hfind' := h.trans hfind
    cases op with
    | create | deleteExpired | chatLink | ping => cases hop
    | get =>
      cases hop
      change (s.get now id).1 = (s'.get now id).1
      by_cases hv : m.isVisibleAt now
      · rw [get_of_visible hfind' hv, get_of_visible hfind hv]
      · rw [get_of_not_visible hfind' hv, get_of_not_visible hfind hv]
    | delete =>
      cases hop
      change (s.delete id).1 = (s'.delete id).1
      rw [delete_of_find? hfind', delete_of_find? hfind]
    | setCall =>
      cases hop
      change (s.modify id _).1 = (s'.modify id _).1
      rw [modify_of_find? hfind', modify_of_find? hfind]
    | setSatisfaction =>
      cases hop
      change (s.modify id _).1 = (s'.modify id _).1
      rw [modify_of_find? hfind', modify_of_find? hfind]

/-- After the same turns, in which no identifier is used for a second meeting, a store holds all
meetings that one with a smaller capacity holds, in the same order, and what can be read, changed or
deleted in the smaller can be in the larger, with the same answer. -/
theorem larger_store_keeps {small large : Nat} (wider : small ≤ large) {ts : List Turn}
    (once : CreatedOnce ts) :
    (∀ id m, (after small ts).find? id = some m → (after large ts).find? id = some m) ∧
    (after small ts).meetings.Sublist (after large ts).meetings ∧
    (after large ts).size ≤ (after small ts).size + (large - small) ∧
    ∀ now op id v, op.sought? = some id → ((after small ts).perform now op).1 = .ok v →
      ((after large ts).perform now op).1 = .ok v := by
  have hincludes : (after large ts).Includes (after small ts) := includes_after wider once
  have hfind {id : String} {m : Meeting} (h : (after small ts).find? id = some m) :=
    hincludes.find? (keyed_after large ts) h
  refine ⟨fun _ _ => hfind, hincludes.order, ?_, fun now op id v hop hok => ?_⟩
  · have hsurplus := hincludes.surplus
    rw [capacity_after, capacity_after] at hsurplus
    omega
  · cases hsmall : (after small ts).find? id with
    | none =>
      rw [perform_of_absent hop hsmall] at hok
      cases hok
    | some m => rw [← hok, perform_of_find?_eq hop ((hfind hsmall).trans hsmall.symm)]

open Meeting.Sample in
/-- A meeting that only the larger of two stores still holds is read. What the smaller holds comes
after it then, and can be read in both. -/
theorem held_behind_read :
    (after 2 [.perform now (.get (identifier 0)), .perform now (.create (ofSeed 2)),
      .perform now (.create (ofSeed 1)), .perform now (.create (ofSeed 0))]).meetings =
        [ofSeed 2, ofSeed 1] ∧
    (after 3 [.perform now (.get (identifier 0)), .perform now (.create (ofSeed 2)),
      .perform now (.create (ofSeed 1)), .perform now (.create (ofSeed 0))]).meetings =
        [ofSeed 0, ofSeed 2, ofSeed 1] ∧
    ((after 3 [.perform now (.get (identifier 0)), .perform now (.create (ofSeed 2)),
      .perform now (.create (ofSeed 1)), .perform now (.create (ofSeed 0))]).perform now
        (.get (identifier 1))).1 = .ok (ofSeed 1) := by
  refine ⟨by decide +kernel, by decide +kernel, ?_⟩
  have once : CreatedOnce [.perform now (.get (identifier 0)), .perform now (.create (ofSeed 2)),
      .perform now (.create (ofSeed 1)), .perform now (.create (ofSeed 0))] := by
    unfold CreatedOnce
    decide +kernel
  obtain ⟨-, -, -, hanswer⟩ := larger_store_keeps (by decide : 2 ≤ 3) once
  exact hanswer now (.get (identifier 1)) (identifier 1) (ofSeed 1) rfl (by decide +kernel)

end Memory

end Rendezvous.Store
