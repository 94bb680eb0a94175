import Rendezvous.Proofs.Interleaving.Attainable
import Rendezvous.Proofs.Interleaving.Lifecycle
import Rendezvous.Proofs.Service.Results

namespace Rendezvous

open Store

theorem Meeting.Identifier.not_spells {id : String} (h : isIdentifier id) (raw : List UInt8) :
    ¬Token.Spells id raw := by
  obtain ⟨hlength, hsymbols⟩ := isIdentifier_iff.mp h
  refine Token.not_spells (by rw [hlength]; decide) ?_ raw
  intro hpad
  exact absurd (hsymbols _ hpad) (by decide)

namespace Service

variable (s : Service)

/-- What a payload reports on the meeting with an identifier: it can be read, and refers to the
meeting by a token or by the identifier itself. -/
def report? (id : String) (payload : List UInt8) : Option Call.Hangup :=
  match Call.Hangup.ofPayload payload with
  | .error _ => none
  | .ok hangup =>
    hangup.data.meetingId.bind fun reference =>
      if (s.cipher.redeem reference).toOption = some id ∨ reference = id then some hangup else none

variable {s}

theorem Resolves.means {reference id : String} (h : s.Resolves reference id) :
    (s.cipher.redeem reference).toOption = some id ∨ reference = id := by
  rcases h with h | ⟨_, _, rfl⟩
  · exact .inl (by rw [h]; rfl)
  · exact .inr rfl

theorem resolves_of_means {reference id : String} (hid : Meeting.Identifier.isIdentifier id)
    (h : (s.cipher.redeem reference).toOption = some id ∨ reference = id) :
    s.Resolves reference id := by
  rcases h with h | rfl
  · cases hr : s.cipher.redeem reference with
    | ok id' =>
      rw [hr] at h
      obtain rfl : id' = id := Option.some.inj h
      exact .inl hr
    | error fault =>
      rw [hr] at h
      cases h
  · obtain ⟨fault, hd⟩ := Token.decode_eq_error (Meeting.Identifier.not_spells hid)
    exact .inr ⟨⟨_, s.cipher.redeem_of_decode_error hd⟩, hid, rfl⟩

theorem report?_of_unread {payload : List UInt8} {failure : Json.Failure}
    (unread : Call.Hangup.ofPayload payload = .error failure) (id : String) :
    s.report? id payload = none := by
  simp only [report?, unread]

theorem report?_of_unrelated {payload : List UInt8} {hangup : Call.Hangup}
    (read : Call.Hangup.ofPayload payload = .ok hangup) (unrelated : hangup.data.meetingId = none)
    (id : String) : s.report? id payload = none := by
  simp only [report?, read, unrelated, Option.bind_none]

section

variable {payload : List UInt8} {hangup : Call.Hangup} {reference id : String}

theorem report?_eq_some (read : Call.Hangup.ofPayload payload = .ok hangup)
    (related : hangup.data.meetingId = some reference) (known : s.Resolves reference id) :
    s.report? id payload = some hangup := by
  simp only [report?, read, related, Option.bind_some]
  exact if_pos known.means

theorem report?_eq_none (h : Meeting.Identifier.isIdentifier id)
    (read : Call.Hangup.ofPayload payload = .ok hangup)
    (related : hangup.data.meetingId = some reference) (unknown : ¬s.Resolves reference id) :
    s.report? id payload = none := by
  simp only [report?, read, related, Option.bind_some]
  exact if_neg fun hr => unknown (resolves_of_means h hr)

end

variable (s) in
/-- What becomes of a meeting that callers may see when events have been taken: the first report on
it is noted, unless a call was noted before. -/
def settle (payloads : List (List UInt8)) (m : Meeting) : Meeting :=
  if m.callId.isSome then m
  else
    match payloads.findSome? (s.report? m.id) with
    | some hangup => { m with callId := some hangup.id, bridged := 0 < hangup.bridgedAt }
    | none => m

variable {payloads : List (List UInt8)} {payload : List UInt8} {m : Meeting}

theorem settle_of_called (h : m.callId.isSome) : s.settle payloads m = m := if_pos h

theorem settle_nil : s.settle [] m = m := by
  unfold settle
  split <;> rfl

theorem id_settle : (s.settle payloads m).id = m.id := by
  unfold settle
  split
  · rfl
  · split <;> rfl

theorem settle_of_uncalled (h : (s.settle payloads m).callId = none) :
    s.settle payloads m = m ∧ m.callId = none := by
  unfold settle at h ⊢
  split at h
  · next hc => simp [h] at hc
  · next hc =>
    rw [if_neg hc]
    split at h
    · cases h
    · exact ⟨rfl, h⟩

theorem settle_append_of_none (h : s.report? m.id payload = none) :
    s.settle (payloads ++ [payload]) m = s.settle payloads m := by
  simp [settle, List.findSome?_append, h]

theorem settle_append_of_called (h : (s.settle payloads m).callId.isSome) :
    s.settle (payloads ++ [payload]) m = s.settle payloads m := by
  unfold settle at h ⊢
  by_cases hc : m.callId.isSome
  · rw [if_pos hc, if_pos hc]
  · rw [if_neg hc, if_neg hc]
    rw [if_neg hc] at h
    rw [List.findSome?_append]
    cases hfirst : payloads.findSome? (s.report? m.id) with
    | some hangup => rfl
    | none =>
      rw [hfirst] at h
      exact absurd h hc

theorem settle_append_of_first {hangup : Call.Hangup} (h : (s.settle payloads m).callId = none)
    (hr : s.report? m.id payload = some hangup) : s.settle (payloads ++ [payload]) m =
      { m with callId := some hangup.id, bridged := 0 < hangup.bridgedAt } := by
  obtain ⟨hsettle, hm⟩ := settle_of_uncalled h
  have hc : ¬m.callId.isSome := by simp [hm]
  unfold settle at hsettle ⊢
  rw [if_neg hc] at hsettle ⊢
  rw [List.findSome?_append]
  cases hfirst : payloads.findSome? (s.report? m.id) with
  | none => simp [hr]
  | some hangup =>
    rw [hfirst] at hsettle
    rw [← hsettle] at hm
    cases hm

end Service

def Deployment.Sees (d : Deployment) (m : Meeting) : Prop :=
  m.isVisibleAt d.storeClock.now ∧ m.isVisibleAt d.clock.now

structure Settled (s : Service) (d : Deployment) (payloads : List (List UInt8)) (d' : Deployment) :
    Prop where
  /-- each meeting that callers may see is there, with what was reported on it first -/
  kept : ∀ m ∈ d.memory.meetings, d.Sees m → s.settle payloads m ∈ d'.memory.meetings
  /-- nothing else is there but meetings that callers may not see, as they were -/
  origin : ∀ n ∈ d'.memory.meetings, ∃ m ∈ d.memory.meetings,
    d.Sees m ∧ n = s.settle payloads m ∨ ¬d.Sees m ∧ n = m
  /-- the linked chats are closed, once each, of the meetings in which a call was noted -/
  closed : ∃ ids : List String, ids.Nodup ∧
    (∀ id, id ∈ ids ↔ ∃ m ∈ d.memory.meetings, m.id = id ∧ d.Sees m ∧ m.callId = none ∧
      (s.settle payloads m).callId.isSome) ∧
    d'.chat = d.chat.callAll (ids.filterMap d.memory.chatLink?)
  chats : d'.memory.chats = d.memory.chats
  engine : d'.engine = d.engine
  clock : d'.clock = d.clock
  storeClock : d'.storeClock = d.storeClock

/-- What becomes of an event that is taken after some others. -/
inductive Becomes (s : Service) (d : Deployment) (before : List (List UInt8))
    (payload : List UInt8) : Call.Outcome → Prop where
  | unparseable {failure : Json.Failure} (unread : Call.Hangup.ofPayload payload = .error failure) :
      Becomes s d before payload .unparseable
  | skipped {hangup : Call.Hangup} (read : Call.Hangup.ofPayload payload = .ok hangup)
      (unrelated : hangup.data.meetingId = none) : Becomes s d before payload .skipped
  | linked {m : Meeting} (held : m ∈ d.memory.meetings) (seen : d.Sees m)
      (reported : (s.report? m.id payload).isSome)
      (uncalled : (s.settle before m).callId = none) : Becomes s d before payload .linked
  | alreadyLinked {m : Meeting} (held : m ∈ d.memory.meetings) (seen : d.Sees m)
      (reported : (s.report? m.id payload).isSome)
      (called : (s.settle before m).callId.isSome) : Becomes s d before payload .alreadyLinked
  /-- It refers to something, but to no meeting that callers may see. -/
  | failed {hangup : Call.Hangup} (read : Call.Hangup.ofPayload payload = .ok hangup)
      (related : hangup.data.meetingId.isSome)
      (unseen : ∀ m ∈ d.memory.meetings, d.Sees m → s.report? m.id payload = none) :
      Becomes s d before payload .failed

section

variable {s : Service} {d d₁ d₂ : Deployment} {before : List (List UInt8)} {payload : List UInt8}

theorem Settled.refl (s : Service) (d : Deployment) : Settled s d [] d where
  kept m hm _ := by rwa [Service.settle_nil]
  origin n hn := by
    by_cases hs : d.Sees n
    · exact ⟨n, hn, .inl ⟨hs, Service.settle_nil.symm⟩⟩
    · exact ⟨n, hn, .inr ⟨hs, rfl⟩⟩
  closed := by
    refine ⟨[], List.nodup_nil, fun id => ⟨nofun, ?_⟩, rfl⟩
    rintro ⟨m, _, _, _, hm, hcalled⟩
    rw [Service.settle_nil, hm] at hcalled
    cases hcalled
  chats := rfl
  engine := rfl
  clock := rfl
  storeClock := rfl

/-- An event that decides nothing leaves all as settled as it was. -/
theorem Settled.keep (h : Settled s d before d₁)
    (same : ∀ m ∈ d.memory.meetings, d.Sees m →
      s.settle (before ++ [payload]) m = s.settle before m)
    (keeps : ∀ m ∈ d.memory.meetings, d.Sees m →
      s.settle before m ∈ d₁.memory.meetings → s.settle before m ∈ d₂.memory.meetings)
    (subset : d₂.memory.meetings ⊆ d₁.memory.meetings) (chats : d₂.memory.chats = d₁.memory.chats)
    (chat : d₂.chat = d₁.chat) (engine : d₂.engine = d₁.engine) (clock : d₂.clock = d₁.clock)
    (storeClock : d₂.storeClock = d₁.storeClock) : Settled s d (before ++ [payload]) d₂ where
  kept m hm hs := by
    rw [same m hm hs]
    exact keeps m hm hs (h.kept m hm hs)
  origin n hn := by
    obtain ⟨m, hm, ⟨hs, rfl⟩ | hs⟩ := h.origin n (subset hn)
    · exact ⟨m, hm, .inl ⟨hs, (same m hm hs).symm⟩⟩
    · exact ⟨m, hm, .inr hs⟩
  closed := by
    obtain ⟨ids, nodup, hids, hchat⟩ := h.closed
    refine ⟨ids, nodup, fun id => (hids id).trans ?_, chat.trans hchat⟩
    constructor
    · rintro ⟨m, hm, hid, hs, hc⟩
      exact ⟨m, hm, hid, hs, by rwa [same m hm hs]⟩
    · rintro ⟨m, hm, hid, hs, hc⟩
      exact ⟨m, hm, hid, hs, by rwa [same m hm hs] at hc⟩
  chats := chats.trans h.chats
  engine := engine.trans h.engine
  clock := clock.trans h.clock
  storeClock := storeClock.trans h.storeClock

theorem Deployment.Sees.settle {m : Meeting} (h : d.Sees m) (payloads : List (List UInt8)) :
    d.Sees (s.settle payloads m) := by
  unfold Service.settle
  split
  · exact h
  · split
    · exact ⟨by simp [Meeting.isVisibleAt], by simp [Meeting.isVisibleAt]⟩
    · exact h

theorem Settled.find? (h : Settled s d before d₁) (hk : d₁.memory.Keyed) {m : Meeting}
    (hm : m ∈ d.memory.meetings) (hs : d.Sees m) :
    d₁.memory.find? m.id = some (s.settle before m) := by
  have hid : (s.settle before m).id = m.id := Service.id_settle
  rw [← hid]
  exact hk.find?_eq_some (h.kept m hm hs)

/-- What is shown was there for callers to see, and has been settled. -/
theorem Settled.of_shows (h : Settled s d before d₁) {id : String} {n : Meeting}
    (hn : Service.Shows d₁ id n) :
    ∃ m ∈ d.memory.meetings, m.id = id ∧ d.Sees m ∧ n = s.settle before m := by
  obtain ⟨hmem, hid⟩ := Memory.find?_mem hn.held
  have hs : d.Sees n := ⟨h.storeClock ▸ hn.fresh, h.clock ▸ hn.visible⟩
  obtain ⟨m, hm, ⟨hm', rfl⟩ | ⟨hm', rfl⟩⟩ := h.origin n hmem
  · exact ⟨m, hm, Service.id_settle.symm.trans hid, hm', rfl⟩
  · exact absurd hs hm'

/-- What a reading does not show callers may not see. -/
theorem Settled.ne_of_fetched (h : Settled s d before d₁) (hk : d₁.memory.Keyed) {id : String}
    {fault : Fault} (hr : Service.Fetched d₁ id (.error fault, d₂)) {m : Meeting}
    (hm : m ∈ d.memory.meetings) (hs : d.Sees m) : m.id ≠ id := by
  rintro rfl
  obtain ⟨fresh, visible⟩ := hs.settle (s := s) before
  rw [← h.storeClock] at fresh
  rw [← h.clock] at visible
  have shown : Service.Shows d₁ m.id (s.settle before m) := ⟨h.find? hk hm hs, fresh, visible⟩
  exact shown.not_missed hr

/-- A reading that shows nothing takes nothing from what callers may see. -/
theorem Settled.fetched (h : Settled s d before d₁) (hk : d₁.memory.Keyed) {id : String}
    {fault : Fault} (hr : Service.Fetched d₁ id (.error fault, d₂))
    (same : ∀ m ∈ d.memory.meetings, d.Sees m →
      s.settle (before ++ [payload]) m = s.settle before m) :
    Settled s d (before ++ [payload]) d₂ := by
  have hne := fun m => h.ne_of_fetched hk hr (m := m)
  cases hr with
  | absent tally gone =>
    refine h.keep same ?_ (List.filter_subset_self ..) rfl rfl rfl rfl rfl
    intro m hm hs hmem
    exact Memory.mem_without.mpr ⟨hmem, by rw [Service.id_settle]; exact hne m hm hs⟩
  | hidden tally held fresh expired =>
    have hperm := hk.perm_promote held
    exact h.keep same (fun _ _ _ hmem => hperm.mem_iff.mpr hmem) hperm.subset rfl rfl rfl rfl rfl

theorem Settled.linked (h : Settled s d before d₁) (hd : d.memory.Keyed)
    {m : Meeting} {hangup : Call.Hangup} (hm : m ∈ d.memory.meetings) (hs : d.Sees m)
    (uncalled : (s.settle before m).callId = none) (reported : s.report? m.id payload = some hangup)
    (silent : ∀ n ∈ d.memory.meetings, n.id ≠ m.id → s.report? n.id payload = none)
    (tally : Metrics.Tally) : Settled s d (before ++ [payload])
      { d₁ with
        memory := d₁.memory.promote
          { m with callId := some hangup.id, bridged := 0 < hangup.bridgedAt }
        chat := d₁.chat.callAll (d₁.memory.chatLink? m.id).toList
        tally } := by
  have hself := Service.settle_append_of_first uncalled reported
  have hsame {n : Meeting} (hn : n ∈ d.memory.meetings) (hne : n.id ≠ m.id) :
      s.settle (before ++ [payload]) n = s.settle before n :=
    Service.settle_append_of_none (silent n hn hne)
  obtain ⟨ids, nodup, hids, hchat⟩ := h.closed
  refine ⟨?_, ?_, ⟨ids ++ [m.id], ?_, ?_, ?_⟩, h.chats, h.engine, h.clock, h.storeClock⟩
  · intro n hn hsn
    rw [Memory.mem_promote]
    by_cases hid : n.id = m.id
    · obtain rfl := hd.eq hn hm hid
      exact .inl hself
    · rw [hsame hn hid]
      exact .inr ⟨h.kept n hn hsn, by rwa [Service.id_settle]⟩
  · intro n hn
    rcases Memory.mem_promote.mp hn with rfl | ⟨hn, hid⟩
    · exact ⟨m, hm, .inl ⟨hs, hself.symm⟩⟩
    · obtain ⟨l, hl, ⟨hsl, rfl⟩ | hsl⟩ := h.origin n hn
      · rw [Service.id_settle] at hid
        exact ⟨l, hl, .inl ⟨hsl, (hsame hl hid).symm⟩⟩
      · exact ⟨l, hl, .inr hsl⟩
  · -- the meeting is not among those before, as no call was noted in it
    refine List.nodup_append.mpr ⟨nodup, List.nodup_singleton _, ?_⟩
    rintro id hid _ hmem rfl
    obtain ⟨n, hn, hnid, _, _, hcalled⟩ := (hids id).mp hid
    obtain rfl := hd.eq hn hm (hnid.trans (List.mem_singleton.mp hmem))
    simp [uncalled] at hcalled
  · intro id
    rw [List.mem_append, List.mem_singleton, hids]
    constructor
    · rintro (⟨n, hn, rfl, hsn, hun, hcalled⟩ | rfl)
      · refine ⟨n, hn, rfl, hsn, hun, ?_⟩
        rwa [Service.settle_append_of_called hcalled]
      · exact ⟨m, hm, rfl, hs, (Service.settle_of_uncalled uncalled).2, by rw [hself]; rfl⟩
    · rintro ⟨n, hn, rfl, hsn, hun, hcalled⟩
      by_cases hid : n.id = m.id
      · exact .inr hid
      · rw [hsame hn hid] at hcalled
        exact .inl ⟨n, hn, rfl, hsn, hun, hcalled⟩
  · have hlink : (d₁.memory.chatLink? m.id).toList = [m.id].filterMap d.memory.chatLink? := by
      rw [Memory.chatLink?, h.chats]
      cases hl : d.memory.chats.get? m.id <;> simp [Memory.chatLink?, hl]
    change d₁.chat.callAll _ = _
    rw [hchat, hlink, ← Collaborator.callAll_append, List.filterMap_append]

theorem Settled.step (h : Settled s d before d₁) (hd : d.memory.Keyed) (hk : d₁.memory.Keyed)
    (healthy : d₁.Healthy)
    (identified : ∀ m ∈ d.memory.meetings, Meeting.Identifier.isIdentifier m.id)
    (payload : List UInt8) :
    Becomes s d before payload (d₁.run (s.takeEvent payload)).1 ∧
      Settled s d (before ++ [payload]) (d₁.run (s.takeEvent payload)).2 := by
  have htaken := s.taken healthy payload
  generalize d₁.run (s.takeEvent payload) = x at htaken
  -- an event that reports on nothing is settled at once
  have idle (tally : Metrics.Tally)
      (silent : ∀ m ∈ d.memory.meetings, d.Sees m → s.report? m.id payload = none) :
      Settled s d (before ++ [payload]) { d₁ with tally } :=
    h.keep (fun m hm hs => Service.settle_append_of_none (silent m hm hs)) (fun _ _ _ hmem => hmem)
      (List.Subset.refl _) rfl rfl rfl rfl rfl
  cases htaken with
  | unparseable tally unread =>
    exact ⟨.unparseable unread, idle tally fun m _ _ => Service.report?_of_unread unread m.id⟩
  | skipped tally read unrelated =>
    exact ⟨.skipped read unrelated,
      idle tally fun m _ _ => Service.report?_of_unrelated read unrelated m.id⟩
  | @attached hangup reference r d' tally read related result =>
    have hrelated : hangup.data.meetingId.isSome := by simp [related]
    have silent {m : Meeting} (hm : m ∈ d.memory.meetings) (hr : ¬s.Resolves reference m.id) :
        s.report? m.id payload = none :=
      Service.report?_eq_none (identified m hm) read related hr
    have silent' {id : String} (known : s.Resolves reference id) {m : Meeting}
        (hm : m ∈ d.memory.meetings) (hne : m.id ≠ id) : s.report? m.id payload = none :=
      silent hm fun hr => hne (hr.unique known)
    cases result with
    | rejected tally' unknown =>
      have unseen : ∀ m ∈ d.memory.meetings, d.Sees m → s.report? m.id payload = none :=
        fun m hm _ => silent hm (unknown m.id)
      exact ⟨.failed read hrelated unseen, idle tally unseen⟩
    | missed known hread =>
      have unseen : ∀ m ∈ d.memory.meetings, d.Sees m → s.report? m.id payload = none :=
        fun m hm hs => silent' known hm (h.ne_of_fetched hk hread hm hs)
      have hsettled := h.fetched hk hread fun m hm hs =>
        Service.settle_append_of_none (unseen m hm hs)
      exact ⟨.failed read hrelated unseen, { hsettled with }⟩
    | alreadyLinked tally' known shown called =>
      obtain ⟨m, hm, rfl, hs, rfl⟩ := h.of_shows shown
      have hperm := hk.perm_promote shown.held
      refine ⟨.alreadyLinked hm hs ?_ called, h.keep ?_
        (fun _ _ _ hmem => hperm.mem_iff.mpr hmem) hperm.subset rfl rfl rfl rfl rfl⟩
      · rw [Service.report?_eq_some read related known]
        rfl
      · intro n hn _
        by_cases hid : n.id = m.id
        · obtain rfl := hd.eq hn hm hid
          exact Service.settle_append_of_called called
        · exact Service.settle_append_of_none (silent' known hn hid)
    | linked tally' known shown uncalled =>
      obtain ⟨m, hm, rfl, hs, rfl⟩ := h.of_shows shown
      have reported := Service.report?_eq_some read related known
      refine ⟨.linked hm hs (by rw [reported]; rfl) uncalled, ?_⟩
      rw [(Service.settle_of_uncalled uncalled).1]
      exact h.linked hd hm hs uncalled reported (fun n hn hne => silent' known hn hne) tally

end

/-- What becomes of the events of a queue that are taken after some others, each once and in
order. -/
inductive Handled (s : Service) (d : Deployment) : List (List UInt8) → List (List UInt8) →
    List Call.Outcome → Prop where
  | nil (before : List (List UInt8)) : Handled s d before [] []
  | cons {before payloads : List (List UInt8)} {payload : List UInt8} {outcome : Call.Outcome}
      {outcomes : List Call.Outcome} (head : Becomes s d before payload outcome)
      (tail : Handled s d (before ++ [payload]) payloads outcomes) :
      Handled s d before (payload :: payloads) (outcome :: outcomes)

section

variable {s : Service} {d d₁ : Deployment} {before : List (List UInt8)}

theorem run_takeEvents_cons (s : Service) (d : Deployment) (payload : List UInt8)
    (payloads : List (List UInt8)) : d.run (s.takeEvents (payload :: payloads)) =
      ((d.run (s.takeEvent payload)).1 ::
        ((d.run (s.takeEvent payload)).2.run (s.takeEvents payloads)).1,
        ((d.run (s.takeEvent payload)).2.run (s.takeEvents payloads)).2) := by
  change d.run (s.takeEvent payload >>= fun outcome => s.takeEvents payloads >>= _) = _
  rw [Deployment.run_bind, Deployment.run_bind]
  rfl

theorem Settled.takeEvents (h : Settled s d before d₁) (hd : d.memory.Keyed)
    (hk : d₁.memory.Keyed) (healthy : d₁.Healthy)
    (identified : ∀ m ∈ d.memory.meetings, Meeting.Identifier.isIdentifier m.id)
    (payloads : List (List UInt8)) :
    Handled s d before payloads (d₁.run (s.takeEvents payloads)).1 ∧
      Settled s d (before ++ payloads) (d₁.run (s.takeEvents payloads)).2 := by
  -- what the events taken so far have settled is carried along the queue
  induction payloads generalizing before d₁ with
  | nil =>
    rw [List.append_nil]
    exact ⟨.nil before, h⟩
  | cons payload payloads ih =>
    obtain ⟨head, hnext⟩ := h.step hd hk healthy identified payload
    obtain ⟨tail, hend⟩ := ih hnext (Deployment.keyed_run hk _) (healthy.run _)
    rw [run_takeEvents_cons, List.append_cons]
    exact ⟨.cons head tail, hend⟩

end

/-- Each event of a queue is handled once and in order. Afterwards the first event that reports on a
meeting has decided what is noted in it, if callers may see it and no call was noted before; nothing
else has changed, and the chat service has been called for the meetings in which a call was
noted. -/
theorem first_report_decides (s : Service) {d : Deployment} (h : d.Attainable) (healthy : d.Healthy)
    (payloads : List (List UInt8)) :
    Handled s d [] payloads (d.run (s.takeEvents payloads)).1 ∧
      Settled s d payloads (d.run (s.takeEvents payloads)).2 ∧
      ∀ m ∈ d.memory.meetings, m.callId.isSome →
        m ∈ (d.run (s.takeEvents payloads)).2.memory.meetings := by
  obtain ⟨handled, settled⟩ := (Settled.refl s d).takeEvents h.keyed h.keyed healthy
    (fun _ hm => h.isIdentifier hm) payloads
  refine ⟨handled, settled, ?_⟩
  intro m hm hc
  have hs : d.Sees m := ⟨by simp [Meeting.isVisibleAt, hc], by simp [Meeting.isVisibleAt, hc]⟩
  have hkept := settled.kept m hm hs
  rwa [Service.settle_of_called hc] at hkept

open System.Sample in
theorem exists_attainable (s : Service) : (calm 0 [meeting s 0]).Attainable := by
  obtain ⟨w, hw, hcap, hm, _⟩ := System.exists_created s 0
  exact hw.attainable.drift _ hm.symm hcap.symm

open System.Sample in
/-- The call is noted that the second event reports, since the first cannot be read. -/
theorem settled_by_second : (calm 0 [meeting service 0]).Attainable ∧
    (calm 0 [meeting service 0]).Healthy ∧
    called service ∈ ((calm 0 [meeting service 0]).run
      (service.takeEvents [[], payload])).2.memory.meetings := by
  have h := exists_attainable service
  have healthy : (calm 0 [meeting service 0]).Healthy := fun _ => rfl
  obtain ⟨_, settled, _⟩ := first_report_decides service h healthy [[], payload]
  have hkept := settled.kept (meeting service 0) (List.mem_singleton_self _)
    ⟨by decide, by decide⟩
  have hreport : service.report? id payload = some ⟨"c", "", 1, ⟨none, some id⟩⟩ := by
    simp [Service.report?, ofPayload_payload]
  have hsettle : service.settle [[], payload] (meeting service 0) = called service := by
    change (match [[], payload].findSome? (service.report? id) with | some _ => _ | none => _) = _
    rw [List.findSome?_cons, List.findSome?_cons, hreport]
    rfl
  exact ⟨h, healthy, hsettle ▸ hkept⟩

end Rendezvous
