import Rendezvous.Proofs.Sequence.Course
import Rendezvous.Proofs.Sequence.Queue

namespace Rendezvous

open Store

/-- That a payload has nothing to say any more: each meeting that it refers to has a call. -/
def Spent (s : Service) (payload : List UInt8) (d : Deployment) : Prop :=
  ∀ hangup reference, Call.Hangup.ofPayload payload = .ok hangup →
    hangup.data.meetingId = some reference →
    ∀ m ∈ d.memory.meetings, s.Resolves reference m.id → m.callId.isSome

section

variable {s : Service} {d : Deployment} {payload : List UInt8}

theorem isVisibleAt_of_called {m : Meeting} (h : m.callId.isSome) (now : Int64) :
    m.isVisibleAt now := by
  simp [Meeting.isVisibleAt, h]

theorem spent_takeEvent (healthy : d.Healthy) (oneClock : d.storeClock = d.clock)
    (payload : List UInt8) :
    Spent s payload (d.run (s.takeEvent payload)).2 := by
  have htaken := s.taken healthy payload
  generalize d.run (s.takeEvent payload) = x at htaken
  intro hangup reference read related m hm hr
  cases htaken with
  | unparseable tally unread => cases unread.symm.trans read
  | skipped tally read' unrelated =>
    cases read.symm.trans read'
    cases unrelated.symm.trans related
  | attached tally read' related' result =>
    cases read.symm.trans read'
    cases related.symm.trans related'
    cases result with
    | rejected tally' unknown => exact absurd hr (unknown m.id)
    | missed known hread =>
      cases hread with
      | absent tally' gone => exact absurd (hr.unique known) (Memory.mem_without.mp hm).2
      | hidden tally' held fresh expired =>
        -- the store and the service read one clock, so nothing fresh has expired
        rw [oneClock] at fresh
        exact absurd fresh expired
    | alreadyLinked tally' known shown called =>
      rcases Memory.mem_promote.mp hm with rfl | ⟨_, hne⟩
      · exact called
      · exact absurd ((hr.unique known).trans (Memory.find?_mem shown.held).2.symm) hne
    | linked tally' known shown uncalled =>
      rcases Memory.mem_promote.mp hm with rfl | ⟨_, hne⟩
      · rfl
      · exact absurd ((hr.unique known).trans (Memory.find?_mem shown.held).2.symm) hne

/-- A spent event stays so unless a meeting is created that it reports on. -/
theorem Spent.befall (h : Spent s payload d) (healthy : d.Healthy) (x : Happening)
    (spared : ∀ id, (x.moment s d).created? s = some id → s.report? id payload = none) :
    Spent s payload (x.befall s d).2 := by
  have heffect := effect (s := s) healthy x
  unfold Happening.moment at spared
  generalize x.befall s d = y at heffect spared
  intro hangup reference read related n hn hr
  have old := h hangup reference read related
  cases heffect with
  | none meetings => exact old n (meetings hn) hr
  | created meetings =>
    rcases meetings n hn with rfl | ⟨hn, _⟩
    · have hnone := spared n.id (created?_eq_some rfl)
      rw [Service.report?_eq_some read related hr] at hnone
      cases hnone
    · exact old n hn hr
  | called held uncalled meetings =>
    rcases meetings n hn with rfl | ⟨hn, _⟩
    · rfl
    · exact old n hn hr
  | refused tally tidy known shown => exact old n (promote_subset shown.held hn) hr
  | @noted _ _ _ _ _ m _ tally tidy known shown =>
    rcases Memory.mem_promote.mp hn with rfl | ⟨hn, _⟩
    · exact old m (Memory.find?_mem shown.held).1 hr
    · exact old n hn hr

theorem Course.spent {d₀ : Deployment} {ms : List Moment} (h : Course s d₀ ms d)
    (healthy : d₀.Healthy) (h₀ : Spent s payload d₀)
    (spared : ∀ x ∈ ms, ∀ id, x.created? s = some id → s.report? id payload = none) :
    Spent s payload d := by
  induction h with
  | start => exact h₀
  | next course x ih =>
    rw [List.forall_mem_cons] at spared
    exact (ih spared.2).befall (course.healthy healthy) x spared.1

/-- That a deployment differs from another in nothing but the order of the meetings and what has
been counted. -/
structure Unchanged (d d' : Deployment) : Prop where
  meetings : d'.memory.meetings.Perm d.memory.meetings
  chats : d'.memory.chats = d.memory.chats
  chat : d'.chat = d.chat
  engine : d'.engine = d.engine

theorem unchanged_of_spent (h : Spent s payload d) (hk : d.memory.Keyed) (healthy : d.Healthy) :
    (d.run (s.takeEvent payload)).1 ≠ .linked ∧
      Unchanged d (d.run (s.takeEvent payload)).2 := by
  have htaken := s.taken healthy payload
  generalize d.run (s.takeEvent payload) = x at htaken
  have perm := List.Perm.refl d.memory.meetings
  cases htaken with
  | unparseable => exact ⟨nofun, perm, rfl, rfl, rfl⟩
  | skipped => exact ⟨nofun, perm, rfl, rfl, rfl⟩
  | @attached hangup reference r d' tally read related result =>
    have called {id : String} {m : Meeting} (known : s.Resolves reference id)
        (held : d.memory.find? id = some m) : m.callId.isSome := by
      obtain ⟨hm, rfl⟩ := Memory.find?_mem held
      exact h hangup reference read related m hm known
    cases result with
    | rejected => exact ⟨nofun, perm, rfl, rfl, rfl⟩
    | @missed id fault _ known hread =>
      refine ⟨nofun, ?_⟩
      cases hread with
      | absent tally' gone =>
        -- a meeting with a call never lapses, so there is none for the store to drop
        have hnone : d.memory.find? id = none := by
          rw [Option.eq_none_iff_forall_ne_some]
          intro m held
          exact gone m held (isVisibleAt_of_called (called known held) _)
        rw [Memory.pop_of_find?_eq_none hnone]
        exact ⟨perm, rfl, rfl, rfl⟩
      | hidden tally' held fresh expired =>
        exact absurd (isVisibleAt_of_called (called known held) _) expired
    | alreadyLinked tally' known shown _ =>
      exact ⟨nofun, hk.perm_promote shown.held, rfl, rfl, rfl⟩
    | linked tally' known shown uncalled =>
      have hcalled := called known shown.held
      simp [uncalled] at hcalled

end

/-- When an event has been taken once, whatever happens then, to take it again changes nothing,
unless a meeting that it reports on has been created in between. -/
theorem redelivery_changes_nothing (s : Service) {d : Deployment} (h : d.Attainable)
    (healthy : d.Healthy) (oneClock : d.storeClock = d.clock) (payload : List UInt8)
    {ms : List Moment} {d' : Deployment} (course : Course s (d.run (s.takeEvent payload)).2 ms d')
    (spared : ∀ x ∈ ms, ∀ id, x.created? s = some id → s.report? id payload = none) :
    (d'.run (s.takeEvent payload)).1 ≠ .linked ∧
      Unchanged d' (d'.run (s.takeEvent payload)).2 := by
  have healthy' := healthy.run (s.takeEvent payload)
  have hk := Deployment.keyed_run h.keyed (s.takeEvent payload)
  have hspent := course.spent healthy' (spent_takeEvent healthy oneClock payload) spared
  exact unchanged_of_spent hspent (course.keyed hk) (course.healthy healthy')

open System.Sample in
/-- The event of the first meeting is taken again when the clock of the service has passed its
expiry. -/
theorem redelivered_after_expiry :
    let d := (calm 0 [meeting service 0]).run (service.takeEvent payload) |>.2
    let expiry := Happening.setClocks 61 0
    let d' := (expiry.befall service d).2
    Course service d [expiry.moment service d] d' ∧
      (d'.run (service.takeEvent payload)).1 ≠ .linked ∧
      Unchanged d' (d'.run (service.takeEvent payload)).2 := by
  intro d expiry d'
  have course : Course service d [expiry.moment service d] d' := .next .start expiry
  refine ⟨course, redelivery_changes_nothing service (exists_attainable service) (fun _ => rfl) rfl
    payload course ?_⟩
  intro x hx id hid
  obtain rfl := List.mem_singleton.mp hx
  cases hid

end Rendezvous
