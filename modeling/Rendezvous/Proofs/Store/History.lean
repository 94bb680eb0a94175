import Rendezvous.Proofs.Interleaving.Contents

namespace Rendezvous.Store

/-- What is done to a store in memory: an operation at a time, or a change of a link to a chat. -/
inductive Turn where
  | perform (now : Int64) (op : Operation)
  | linkChat (id : String) (link : ChatLink)
  | unlinkChat (id : String)

/-- The meeting that an operation uses if it succeeds. -/
def Operation.used? : Operation → Option String
  | create m => some m.id
  | get id | setCall id .. | setSatisfaction id _ => some id
  | delete _ | deleteExpired _ | chatLink _ | ping => none

namespace Turn

def apply : Turn → Memory → Memory
  | perform now op, s => (s.perform now op).2
  | linkChat id link, s => s.linkChat id link
  | unlinkChat id, s => (s.unlinkChat id).2

def used? (s : Memory) : Turn → Option String
  | perform now op => if (s.perform now op).1.isOk then op.used? else none
  | linkChat .. | unlinkChat _ => none

/-- What a turn makes of a meeting that it does not take. -/
def effect (s : Memory) : Turn → Meeting → Meeting
  | perform now op => Exchange.effect ⟨.store op, (s.perform now op).1⟩
  | linkChat .. | unlinkChat _ => id

theorem id_effect (s : Memory) (t : Turn) (m : Meeting) : (t.effect s m).id = m.id := by
  cases t with
  | perform now op => exact Exchange.id_effect _ m
  | linkChat => rfl
  | unlinkChat => rfl

/-- The turns that take a meeting and the link to its chat. -/
inductive Drops (m : Meeting) : Turn → Prop where
  | deleted (now : Int64) : Drops m (.perform now (.delete m.id))
  | swept (now : Int64) {cutoff : Int64} (expired : m.expiresAt ≤ cutoff) :
      Drops m (.perform now (.deleteExpired cutoff))

/-- The turns that take a meeting of a store and leave the link to its chat. -/
inductive Strands (s : Memory) (m : Meeting) : Turn → Prop where
  | lapsed {now : Int64} (expired : m.expiresAt ≤ now) (uncalled : m.callId = none) :
      Strands s m (.perform now (.get m.id))
  | replaced {now : Int64} {n : Meeting} (same : n.id = m.id) (expired : m.expiresAt ≤ now)
      (uncalled : m.callId = none) : Strands s m (.perform now (.create n))
  /-- The meeting is the last of a full store, and another is new to it. -/
  | evicted (now : Int64) {n : Meeting} (new : s.find? n.id = none) (full : s.size = s.capacity)
      (last : s.meetings.getLast? = some m) : Strands s m (.perform now (.create n))

inductive Change (s : Memory) : Turn → List Meeting → Prop where
  | same {t : Turn} (unused : t.used? s = none) (idle : ∀ m ∈ s.meetings, t.effect s m = m) :
      Change s t s.meetings
  | used {t : Turn} {m : Meeting} (held : s.find? m.id = some m) (used : t.used? s = some m.id)
      (idle : ∀ n ∈ s.meetings, n.id ≠ m.id → t.effect s n = n) :
      Change s t (t.effect s m :: s.without m.id)
  | deleted (now : Int64) {m : Meeting} (held : s.find? m.id = some m) :
      Change s (.perform now (.delete m.id)) (s.without m.id)
  | lapsed {now : Int64} {m : Meeting} (held : s.find? m.id = some m)
      (expired : m.expiresAt ≤ now) (uncalled : m.callId = none)
      (unused : (perform now (.get m.id)).used? s = none) :
      Change s (.perform now (.get m.id)) (s.without m.id)
  | swept (now cutoff : Int64) :
      Change s (.perform now (.deleteExpired cutoff))
        (s.meetings.filter fun m => !m.isExpiredAt cutoff)
  | replaced {now : Int64} {m n : Meeting} (held : s.find? n.id = some m)
      (expired : m.expiresAt ≤ now) (uncalled : m.callId = none)
      (used : (perform now (.create n)).used? s = some n.id) :
      Change s (.perform now (.create n)) (n :: s.without n.id)
  | created (now : Int64) {n : Meeting} (new : s.find? n.id = none) (room : s.size < s.capacity)
      (used : (perform now (.create n)).used? s = some n.id) :
      Change s (.perform now (.create n)) (n :: s.meetings)
  | evicted (now : Int64) {n : Meeting} (new : s.find? n.id = none) (full : s.size = s.capacity)
      (used : (perform now (.create n)).used? s = some n.id) :
      Change s (.perform now (.create n)) (n :: s.meetings.dropLast)

end Turn

/-- A meeting is hidden from callers when it has expired without a call. -/
theorem not_isVisibleAt {m : Meeting} {now : Int64} :
    ¬m.isVisibleAt now ↔ m.expiresAt ≤ now ∧ m.callId = none := by
  simp [Meeting.isVisibleAt, Meeting.isExpiredAt]

theorem Memory.without_eq_of_new {s : Memory} {id : String} (h : s.find? id = none) :
    s.without id = s.meetings :=
  congrArg Memory.meetings (pop_of_find?_eq_none h)

theorem Memory.length_without_lt {s : Memory} {id : String} {m : Meeting}
    (h : s.find? id = some m) : (s.without id).length < s.size := by
  obtain ⟨hm, hid⟩ := find?_mem h
  apply List.length_filter_lt_length_iff_exists.mpr
  exact ⟨m, hm, by simp [hid]⟩

theorem Memory.mem_push {s : Memory} (room : 0 < s.capacity) (n : Meeting) :
    n ∈ (s.push n).meetings := by
  obtain ⟨k, hk⟩ := Nat.exists_eq_add_one.mpr room
  change n ∈ (n :: s.without n.id).take s.capacity
  rw [hk, List.take_succ_cons]
  exact List.mem_cons_self

/-- A new meeting in a full store is held in the place of the last one. -/
theorem Memory.push_of_full {s : Memory} {n : Meeting} (new : s.find? n.id = none)
    (full : s.size = s.capacity) (room : 0 < s.capacity) :
    (s.push n).meetings = n :: s.meetings.dropLast := by
  obtain ⟨k, hk⟩ := Nat.exists_eq_add_one.mpr room
  have hlen : s.meetings.length - 1 = k := by
    unfold size at full
    omega
  change (n :: s.without n.id).take s.capacity = _
  rw [without_eq_of_new new, hk, List.take_succ_cons, List.dropLast_eq_take, hlen]

namespace Turn

variable {s : Memory} {now : Int64} {op : Operation}

theorem used?_of_ok {v : op.Value} (h : (s.perform now op).1 = .ok v) :
    (perform now op).used? s = op.used? := by
  simp [used?, h, Except.isOk, Except.toBool]

theorem used?_of_error {fault : Fault} (h : (s.perform now op).1 = .error fault) :
    (perform now op).used? s = none := by
  simp [used?, h, Except.isOk, Except.toBool]

theorem used?_of_useless (h : op.used? = none) : (perform now op).used? s = none := by
  simp [used?, h]

theorem Change.of_error {fault : Fault} (h : (s.perform now op).1 = .error fault) :
    Change s (.perform now op) s.meetings := by
  refine .same (used?_of_error h) fun m _ => ?_
  simp only [effect, h]
  cases op <;> rfl

theorem change_noted {v : op.Value} {id : String} (f : Meeting → Meeting)
    (hop : op.used? = some id)
    (absent : s.find? id = none → s.perform now op = (.error .notFound, s))
    (noted : ∀ m, s.find? id = some m → s.perform now op = (.ok v, s.promote (f m)))
    (hnoted : ∀ n, Exchange.effect ⟨.store op, .ok v⟩ n = if n.id = id then f n else n) :
    Change s (.perform now op) (s.perform now op).2.meetings := by
  cases hfind : s.find? id with
  | none =>
    rw [absent hfind]
    exact Change.of_error (congrArg Prod.fst (absent hfind))
  | some m =>
    obtain ⟨_, rfl⟩ := Memory.find?_mem hfind
    have hanswer := noted m hfind
    have heffect (n : Meeting) :
        (perform now op).effect s n = if n.id = m.id then f n else n := by
      simp only [effect, hanswer, hnoted]
    have hm : (perform now op).effect s m = f m := by
      rw [heffect, if_pos rfl]
    have hid : (f m).id = m.id := by
      rw [← hm, id_effect]
    have hused : (perform now op).used? s = some m.id :=
      (used?_of_ok (congrArg Prod.fst hanswer)).trans hop
    have hchange := Change.used hfind hused fun n _ hne => (heffect n).trans (if_neg hne)
    rw [hm] at hchange
    rw [hanswer]
    change Change s _ (f m :: s.without (f m).id)
    rwa [hid]

theorem change_create (room : 0 < s.capacity) (bound : s.size ≤ s.capacity) (n : Meeting) :
    Change s (.perform now (.create n)) (s.create now n).2.meetings := by
  by_cases hfree : (s.find? n.id).any (·.isVisibleAt now)
  · have hanswer := Memory.create_of_held hfree
    rw [hanswer]
    exact Change.of_error (congrArg Prod.fst hanswer)
  have hanswer := Memory.create_of_free hfree
  have hused : (perform now (.create n)).used? s = some n.id :=
    used?_of_ok (congrArg Prod.fst hanswer)
  rw [hanswer]
  cases hfind : s.find? n.id with
  | some m =>
    have hhidden : ¬m.isVisibleAt now := by
      simpa [hfind] using hfree
    obtain ⟨hexpired, huncalled⟩ := not_isVisibleAt.mp hhidden
    have htake : (s.push n).meetings = n :: s.without n.id := by
      apply List.take_of_length_le
      have hlt := Memory.length_without_lt hfind
      rw [List.length_cons]
      omega
    rw [htake]
    exact .replaced hfind hexpired huncalled hused
  | none =>
    rcases Nat.lt_or_ge s.size s.capacity with hlt | hge
    · rw [Memory.push_of_lt hlt]
      change Change s _ (n :: s.without n.id)
      rw [Memory.without_eq_of_new hfind]
      exact .created now hfind hlt hused
    · have hfull : s.size = s.capacity := Nat.le_antisymm bound hge
      rw [Memory.push_of_full hfind hfull room]
      exact .evicted now hfind hfull hused

theorem change_get (id : String) : Change s (.perform now (.get id)) (s.get now id).2.meetings := by
  cases hfind : s.find? id with
  | none =>
    have hanswer : s.perform now (.get id) = (.error .notFound, s) :=
      Memory.get_of_find?_eq_none hfind
    rw [Memory.get_of_find?_eq_none hfind]
    exact Change.of_error (congrArg Prod.fst hanswer)
  | some m =>
    obtain ⟨_, rfl⟩ := Memory.find?_mem hfind
    by_cases hv : m.isVisibleAt now
    · have hanswer := Memory.get_of_visible hfind hv
      rw [hanswer]
      exact Change.used hfind (used?_of_ok (congrArg Prod.fst hanswer)) fun n _ _ => rfl
    · obtain ⟨hexpired, huncalled⟩ := not_isVisibleAt.mp hv
      have hanswer := Memory.get_of_not_visible hfind hv
      rw [hanswer]
      exact .lapsed hfind hexpired huncalled (used?_of_error (congrArg Prod.fst hanswer))

theorem change_delete (id : String) :
    Change s (.perform now (.delete id)) (s.delete id).2.meetings := by
  cases hfind : s.find? id with
  | none =>
    have hanswer := Memory.delete_of_find?_eq_none hfind
    rw [hanswer]
    exact Change.of_error (congrArg Prod.fst hanswer)
  | some m =>
    obtain ⟨_, rfl⟩ := Memory.find?_mem hfind
    rw [Memory.delete_of_find? hfind]
    exact .deleted now hfind

/-- A turn changes the meetings of a store in one of these ways. -/
theorem change (room : 0 < s.capacity) (bound : s.size ≤ s.capacity) (t : Turn) :
    Change s t (t.apply s).meetings := by
  cases t with
  | linkChat id link => exact .same rfl fun _ _ => rfl
  | unlinkChat id => exact .same rfl fun _ _ => rfl
  | perform now op =>
    cases op with
    | create n => exact change_create room bound n
    | get id => exact change_get id
    | delete id => exact change_delete id
    | setCall id callId bridged =>
      exact change_noted (fun m => { m with callId := some callId, bridged }) rfl
        (Memory.modify_of_find?_eq_none · _) (fun _ => (Memory.modify_of_find? · _)) fun _ => rfl
    | setSatisfaction id value =>
      exact change_noted (fun m => { m with satisfaction := some value }) rfl
        (Memory.modify_of_find?_eq_none · _) (fun _ => (Memory.modify_of_find? · _)) fun _ => rfl
    | deleteExpired cutoff => exact .swept now cutoff
    | chatLink id => exact .same rfl fun _ _ => rfl
    | ping => exact .same rfl fun _ _ => rfl

/-- A meeting that a turn does not take is kept. -/
theorem Change.kept {t : Turn} {ms : List Meeting} (h : Change s t ms) (hk : s.Keyed) {m : Meeting}
    (hm : m ∈ s.meetings) (undropped : ¬Drops m t) (unstranded : ¬Strands s m t) :
    t.effect s m ∈ ms := by
  have hrest {id : String} (hid : m.id ≠ id) : m ∈ s.without id := Memory.mem_without.mpr ⟨hm, hid⟩
  cases h with
  | same _ idle =>
    rw [idle m hm]
    exact hm
  | @used t n held _ idle =>
    by_cases hid : m.id = n.id
    · rw [hk.eq hm (Memory.find?_mem held).1 hid]
      exact List.mem_cons_self
    · rw [idle m hm hid]
      exact List.mem_cons_of_mem _ (hrest hid)
  | @deleted now n held =>
    by_cases hid : m.id = n.id
    · exact absurd (hid ▸ .deleted now) undropped
    · exact hrest hid
  | @lapsed now n held expired uncalled =>
    by_cases hid : m.id = n.id
    · obtain rfl := hk.eq hm (Memory.find?_mem held).1 hid
      exact absurd (.lapsed expired uncalled) unstranded
    · exact hrest hid
  | swept now cutoff =>
    have hlive : ¬m.expiresAt ≤ cutoff := fun hexpired => undropped (.swept now hexpired)
    change m ∈ s.meetings.filter _
    exact List.mem_filter.mpr ⟨hm, by simpa [Meeting.isExpiredAt] using hlive⟩
  | @replaced now n n' held expired uncalled =>
    obtain ⟨hn, hid'⟩ := Memory.find?_mem held
    by_cases hid : m.id = n'.id
    · obtain rfl := hk.eq hm hn (hid.trans hid'.symm)
      exact absurd (.replaced hid.symm expired uncalled) unstranded
    · exact List.mem_cons_of_mem _ (hrest hid)
  | created => exact List.mem_cons_of_mem _ hm
  | @evicted now n new full =>
    have hne : s.meetings ≠ [] := List.ne_nil_of_mem hm
    have hsplit := List.dropLast_concat_getLast hne
    rw [← hsplit] at hm
    rcases List.mem_append.mp hm with hm | hm
    · exact List.mem_cons_of_mem _ hm
    · have hlast : s.meetings.getLast? = some m := by
        rw [List.getLast?_eq_some_getLast hne, List.mem_singleton.mp hm]
      exact absurd (.evicted now new full hlast) unstranded

theorem Change.length_le {t : Turn} {ms : List Meeting} (h : Change s t ms) (room : 0 < s.capacity)
    (bound : s.size ≤ s.capacity) : ms.length ≤ s.capacity := by
  have hfilter (p : Meeting → Bool) : (s.meetings.filter p).length ≤ s.capacity :=
    Nat.le_trans (List.length_filter_le p s.meetings) bound
  cases h with
  | same => exact bound
  | used held => exact Nat.le_trans (Memory.length_without_lt held) bound
  | deleted => exact hfilter _
  | lapsed => exact hfilter _
  | swept => exact hfilter _
  | replaced held => exact Nat.le_trans (Memory.length_without_lt held) bound
  | created now new room => exact room
  | evicted now new full =>
    rw [List.length_cons, List.length_dropLast]
    unfold Memory.size at full bound
    omega

end Turn

namespace Memory

/-- The store with a capacity after some turns, of which the last comes first. -/
def after (capacity : Nat) : List Turn → Memory
  | [] => .empty capacity
  | t :: ts => t.apply (after capacity ts)

theorem capacity_perform (s : Memory) (now : Int64) (op : Operation) :
    (s.perform now op).2.capacity = s.capacity := by
  cases op with
  | create m =>
    change (s.create now m).2.capacity = _
    unfold create
    split <;> rfl
  | get id =>
    change (s.get now id).2.capacity = _
    unfold get
    split
    · rfl
    · split <;> rfl
  | delete id =>
    change (s.delete id).2.capacity = _
    unfold delete
    split <;> rfl
  | setCall id callId bridged =>
    change (s.modify id _).2.capacity = _
    unfold modify
    split <;> rfl
  | setSatisfaction id value =>
    change (s.modify id _).2.capacity = _
    unfold modify
    split <;> rfl
  | deleteExpired | chatLink | ping => rfl

theorem capacity_after (capacity : Nat) (ts : List Turn) :
    (after capacity ts).capacity = capacity := by
  induction ts with
  | nil => rfl
  | cons t ts ih =>
    cases t with
    | perform now op => exact (capacity_perform _ now op).trans ih
    | linkChat | unlinkChat => exact ih

theorem keyed_after (capacity : Nat) (ts : List Turn) : (after capacity ts).Keyed := by
  induction ts with
  | nil => exact List.nodup_nil
  | cons t ts ih =>
    cases t with
    | perform now op => exact ih.perform op
    | linkChat | unlinkChat => exact ih

variable {capacity : Nat}

theorem size_after_le (room : 0 < capacity) (ts : List Turn) :
    (after capacity ts).size ≤ capacity := by
  induction ts with
  | nil => exact Nat.zero_le _
  | cons t ts ih =>
    have hcapacity := capacity_after capacity ts
    have hroom := Nat.lt_of_lt_of_eq room hcapacity.symm
    have hbound := Nat.le_trans ih (Nat.le_of_eq hcapacity.symm)
    exact Nat.le_trans ((t.change hroom hbound).length_le hroom hbound) (Nat.le_of_eq hcapacity)

theorem change_after (room : 0 < capacity) (ts : List Turn) (t : Turn) :
    t.Change (after capacity ts) (after capacity (t :: ts)).meetings := by
  have hcapacity := capacity_after capacity ts
  exact t.change (Nat.lt_of_lt_of_eq room hcapacity.symm)
    (Nat.le_trans (size_after_le room ts) (Nat.le_of_eq hcapacity.symm))

end Memory

end Rendezvous.Store
