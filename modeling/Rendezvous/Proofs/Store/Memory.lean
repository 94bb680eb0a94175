import Mathlib.Data.List.Nodup
import Rendezvous.Store.Operation

namespace Rendezvous.Store.Memory

variable {s : Memory} {now : Int64}

theorem find?_eq_none {id : String} : s.find? id = none ↔ ∀ m ∈ s.meetings, m.id ≠ id := by
  simp [find?]

theorem create_of_held {m : Meeting} (h : (s.find? m.id).any (·.isVisibleAt now)) :
    s.create now m = (.error .alreadyExists, s) :=
  if_pos h

theorem create_of_free {m : Meeting} (h : ¬(s.find? m.id).any (·.isVisibleAt now)) :
    s.create now m = (.ok (), s.push m) :=
  if_neg h

theorem get_of_find?_eq_none {id : String} (h : s.find? id = none) :
    s.get now id = (.error .notFound, s) := by
  simp only [get, h]

theorem get_of_visible {id : String} {m : Meeting} (h : s.find? id = some m)
    (hv : m.isVisibleAt now) : s.get now id = (.ok m, s.promote m) := by
  simp only [get, h, hv, if_true]

theorem get_of_not_visible {id : String} {m : Meeting} (h : s.find? id = some m)
    (hv : ¬m.isVisibleAt now) : s.get now id = (.error .notFound, s.pop id) := by
  simp only [get, h, if_neg hv]

theorem delete_of_find?_eq_none {id : String} (h : s.find? id = none) :
    s.delete id = (.error .notFound, s) := by
  simp only [delete, h]

theorem delete_of_find? {id : String} {m : Meeting} (h : s.find? id = some m) :
    s.delete id = (.ok (), { s.pop id with chats := s.chats.erase id }) := by
  simp only [delete, h]

theorem modify_of_find?_eq_none {id : String} (h : s.find? id = none) (f : Meeting → Meeting) :
    s.modify id f = (.error .notFound, s) := by
  simp only [modify, h]

theorem modify_of_find? {id : String} {m : Meeting} (h : s.find? id = some m)
    (f : Meeting → Meeting) : s.modify id f = (.ok (), s.promote (f m)) := by
  simp only [modify, h]

theorem fault_of_modify {id : String} {f : Meeting → Meeting} {fault : Fault}
    (h : (s.modify id f).1 = .error fault) : fault = .notFound := by
  cases hfind : s.find? id with
  | none =>
    rw [modify_of_find?_eq_none hfind] at h
    cases h
    rfl
  | some m =>
    rw [modify_of_find? hfind] at h
    cases h

/-- A store in memory fails only for a meeting that it does not show, or that it holds already. -/
theorem fault_of_perform {op : Operation} {fault : Fault}
    (h : (s.perform now op).1 = .error fault) : fault = .notFound ∨ fault = .alreadyExists := by
  cases op with
  | create m =>
    change (s.create now m).1 = _ at h
    unfold create at h
    split at h <;> cases h
    exact .inr rfl
  | get id =>
    change (s.get now id).1 = _ at h
    unfold get at h
    split at h
    · cases h
      exact .inl rfl
    · split at h <;> cases h
      exact .inl rfl
  | delete id =>
    change (s.delete id).1 = _ at h
    unfold delete at h
    split at h <;> cases h
    exact .inl rfl
  | setCall id callId bridged => exact .inl (fault_of_modify h)
  | setSatisfaction id value => exact .inl (fault_of_modify h)
  | deleteExpired | chatLink | ping => cases h

theorem mem_modify {id : String} {f : Meeting → Meeting} (hf : ∀ n, (f n).id = n.id) {m : Meeting}
    (h : m ∈ (s.modify id f).2.meetings) :
    ∃ n ∈ s.meetings, (n.id ≠ id ∧ m = n) ∨ (n.id = id ∧ m = f n ∧ (s.modify id f).1 = .ok ()) := by
  cases hfind : s.find? id with
  | none =>
    rw [modify_of_find?_eq_none hfind] at h
    exact ⟨m, h, .inl ⟨find?_eq_none.mp hfind m h, rfl⟩⟩
  | some n =>
    obtain ⟨hn, hid⟩ := find?_mem hfind
    rw [modify_of_find? hfind] at h ⊢
    simp only [mem_promote, hf, hid] at h
    rcases h with rfl | ⟨hm, hne⟩
    · exact ⟨n, hn, .inr ⟨hid, rfl, rfl⟩⟩
    · exact ⟨m, hm, .inl ⟨hne, rfl⟩⟩

theorem mem_create {m n : Meeting} (h : n ∈ (s.create now m).2.meetings) :
    n ∈ s.meetings ∨ n = m ∧ (s.create now m).1 = .ok () := by
  unfold create at h ⊢
  split at h
  · exact .inl h
  · next hfree =>
    rw [if_neg hfree]
    rcases List.mem_cons.mp (List.mem_of_mem_take h) with rfl | hn
    · exact .inr ⟨rfl, rfl⟩
    · exact .inl (mem_without.mp hn).1

theorem mem_get {id : String} {n : Meeting} (h : n ∈ (s.get now id).2.meetings) :
    n ∈ s.meetings := by
  cases hfind : s.find? id with
  | none => rwa [get_of_find?_eq_none hfind] at h
  | some m =>
    obtain ⟨hm, hid⟩ := find?_mem hfind
    by_cases hv : m.isVisibleAt now
    · rw [get_of_visible hfind hv] at h
      rcases mem_promote.mp h with rfl | ⟨hn, _⟩
      · exact hm
      · exact hn
    · rw [get_of_not_visible hfind hv] at h
      exact (mem_without.mp h).1

theorem mem_delete {id : String} {n : Meeting} (h : n ∈ (s.delete id).2.meetings) :
    n ∈ s.meetings := by
  cases hfind : s.find? id with
  | none => rwa [delete_of_find?_eq_none hfind] at h
  | some m =>
    rw [delete_of_find? hfind] at h
    exact (mem_without.mp h).1

def Keyed (s : Memory) : Prop := (s.meetings.map Meeting.id).Nodup

theorem Keyed.eq (h : s.Keyed) {m n : Meeting} (hm : m ∈ s.meetings) (hn : n ∈ s.meetings)
    (hid : m.id = n.id) : m = n :=
  List.inj_on_of_nodup_map h hm hn hid

theorem Keyed.find?_eq_some (h : s.Keyed) {m : Meeting} (hm : m ∈ s.meetings) :
    s.find? m.id = some m := by
  have hsome : (s.find? m.id).isSome := List.find?_isSome.mpr ⟨m, hm, by simp⟩
  obtain ⟨n, hn⟩ := Option.isSome_iff_exists.mp hsome
  obtain ⟨hmem, hid⟩ := find?_mem hn
  rw [hn, h.eq hmem hm hid]

theorem Keyed.nodup (h : s.Keyed) : s.meetings.Nodup := List.Nodup.of_map _ h

theorem Keyed.of_sublist (h : s.Keyed) {t : Memory} (hsub : t.meetings.Sublist s.meetings) :
    t.Keyed :=
  List.Nodup.sublist (hsub.map _) h

theorem Keyed.promote (h : s.Keyed) (m : Meeting) : (s.promote m).Keyed := by
  have hrest : ((s.without m.id).map Meeting.id).Nodup :=
    List.Nodup.sublist (List.filter_sublist.map _) h
  refine List.nodup_cons.mpr ⟨?_, hrest⟩
  intro hm
  obtain ⟨n, hn, hid⟩ := List.mem_map.mp hm
  exact (mem_without.mp hn).2 hid

theorem Keyed.modify (h : s.Keyed) (id : String) (f : Meeting → Meeting) :
    (s.modify id f).2.Keyed := by
  unfold Memory.modify
  split
  · exact h
  · exact h.promote _

theorem Keyed.perform (h : s.Keyed) (op : Operation) : (s.perform now op).2.Keyed := by
  cases op with
  | create m =>
    change (s.create now m).2.Keyed
    unfold create
    split
    · exact h
    · exact (h.promote m).of_sublist (List.take_sublist _ _)
  | get id =>
    change (s.get now id).2.Keyed
    unfold get
    split
    · exact h
    · split
      · exact h.promote _
      · exact h.of_sublist List.filter_sublist
  | delete id =>
    change (s.delete id).2.Keyed
    unfold delete
    split
    · exact h
    · exact h.of_sublist List.filter_sublist
  | setCall id callId bridged => exact h.modify _ _
  | setSatisfaction id value => exact h.modify _ _
  | deleteExpired cutoff => exact h.of_sublist List.filter_sublist
  | chatLink id => exact h
  | ping => exact h

theorem find?_without {id id' : String} :
    (s.without id').find? (·.id == id) = if id = id' then none else s.find? id := by
  simp only [without, find?, List.find?_filter]
  by_cases h : id = id'
  · subst h
    rw [if_pos rfl, List.find?_eq_none]
    simp
  · rw [if_neg h]
    congr 1
    funext m
    by_cases hm : m.id = id
    · simp [hm, h]
    · simp [hm]

theorem find?_promote (m : Meeting) (id : String) :
    (s.promote m).find? id = if id = m.id then some m else s.find? id := by
  simp only [promote, find?, List.find?_cons]
  by_cases h : m.id = id
  · simp [h]
  · have hne : id ≠ m.id := fun heq => h heq.symm
    have hbeq : (m.id == id) = false := by simpa using h
    rw [hbeq, if_neg hne]
    exact find?_without.trans (if_neg hne)

theorem find?_promote_self {m : Meeting} {id : String} (h : s.find? id = some m) :
    (s.promote m).find? id = some m := by
  rw [find?_promote, if_pos (find?_mem h).2.symm]

theorem promote_promote {m n : Meeting} (h : m.id = n.id) :
    (s.promote m).promote n = s.promote n := by
  simp [promote, without, h]

theorem modify_promote {m : Meeting} {id : String} (h : s.find? id = some m) {f : Meeting → Meeting}
    (hf : (f m).id = m.id) : (s.promote m).modify id f = (.ok (), s.promote (f m)) := by
  rw [modify_of_find? (find?_promote_self h), promote_promote hf.symm]

theorem find?_pop (id id' : String) :
    (s.pop id').find? id = if id = id' then none else s.find? id :=
  find?_without

theorem pop_of_find?_eq_none {id : String} (h : s.find? id = none) : s.pop id = s := by
  have hall : s.without id = s.meetings := by
    rw [without, List.filter_eq_self]
    simpa using find?_eq_none.mp h
  rw [pop, hall]

theorem Keyed.perm_promote (h : s.Keyed) {id : String} {m : Meeting} (hm : s.find? id = some m) :
    (s.promote m).meetings.Perm s.meetings := by
  obtain ⟨hmem, rfl⟩ := find?_mem hm
  refine (List.perm_ext_iff_of_nodup (h.promote m).nodup h.nodup).mpr fun n => ?_
  rw [mem_promote]
  constructor
  · rintro (rfl | ⟨hn, _⟩)
    · exact hmem
    · exact hn
  · intro hn
    by_cases hid : n.id = m.id
    · exact .inl (h.eq hn hmem hid)
    · exact .inr ⟨hn, hid⟩

theorem push_of_lt {m : Meeting} (h : s.size < s.capacity) : s.push m = s.promote m := by
  have hle : (m :: s.without m.id).length ≤ s.capacity := by
    have := List.length_filter_le (·.id != m.id) s.meetings
    simp only [List.length_cons, without]
    unfold size at h
    omega
  simp only [push, promote, List.take_of_length_le hle]

theorem Keyed.find?_deleteExpired (h : s.Keyed) (cutoff : Int64) (id : String) :
    (s.deleteExpired cutoff).2.find? id = (s.find? id).filter fun m => !m.isExpiredAt cutoff := by
  cases hfind : s.find? id with
  | none =>
    rw [find?_eq_none] at hfind
    simp only [Option.filter_none, find?_eq_none]
    intro m hm
    exact hfind m (List.mem_filter.mp hm).1
  | some m =>
    obtain ⟨hm, rfl⟩ := find?_mem hfind
    have hkeyed : (s.deleteExpired cutoff).2.Keyed := h.of_sublist List.filter_sublist
    by_cases hexpired : m.isExpiredAt cutoff
    · rw [Option.filter_some, if_neg (by simp [hexpired]), find?_eq_none]
      intro n hn hid
      obtain ⟨hn, hlive⟩ := List.mem_filter.mp hn
      rw [h.eq hn hm hid] at hlive
      simp [hexpired] at hlive
    · rw [Option.filter_some, if_pos (by simp [hexpired])]
      exact hkeyed.find?_eq_some (List.mem_filter.mpr ⟨hm, by simp [hexpired]⟩)

theorem get?_foldl_erase (ms : List Meeting) (chats : Dictionary ChatLink) (id : String) :
    (ms.foldl (fun chats m => chats.erase m.id) chats).get? id =
      if ms.any (·.id == id) then none else chats.get? id := by
  induction ms generalizing chats with
  | nil => rfl
  | cons m ms ih =>
    rw [List.foldl_cons, ih, Dictionary.get?_erase, List.any_cons]
    by_cases h : m.id = id
    · simp [h]
    · have hne : id ≠ m.id := fun heq => h heq.symm
      simp [h, hne]

theorem Keyed.chats_deleteExpired (h : s.Keyed) (cutoff : Int64) (id : String) :
    (s.deleteExpired cutoff).2.chats.get? id =
      if (s.find? id).any (·.isExpiredAt cutoff) then none else s.chats.get? id := by
  have hany : (s.meetings.filter (·.isExpiredAt cutoff)).any (·.id == id) =
      (s.find? id).any (·.isExpiredAt cutoff) := by
    rw [Bool.eq_iff_iff, List.any_eq_true, Option.any_eq_true]
    constructor
    · rintro ⟨m, hm, hid⟩
      obtain ⟨hm, hexpired⟩ := List.mem_filter.mp hm
      obtain rfl : m.id = id := by simpa using hid
      exact ⟨m, h.find?_eq_some hm, hexpired⟩
    · rintro ⟨m, hfind, hexpired⟩
      obtain ⟨hm, hid⟩ := find?_mem hfind
      exact ⟨m, List.mem_filter.mpr ⟨hm, hexpired⟩, by simp [hid]⟩
  rw [← hany]
  exact get?_foldl_erase _ s.chats id

end Rendezvous.Store.Memory
