import Mathlib.Algebra.BigOperators.Group.List.Basic
import Rendezvous.Proofs.Isolation.Projection
import Rendezvous.Proofs.Service.Counts

namespace Rendezvous

open Metrics Store

def Service.isRejection {α : Type} : Except Fault α → Bool
  | .error .invalidToken => true
  | _ => false

def Reply.isRejection : Reply → Bool
  | got r => Service.isRejection r
  | deleted r | submitted r => Service.isRejection r
  | attached r => Service.isRejection r
  | created _ | silent => false

namespace Happening

/-- The reference to the meeting in which a call is to be noted, and how that is attempted. -/
def attempt? (s : Service) : Happening → Option (String × Action Service.CallLink)
  | command (.attachCall reference callId bridged) =>
    some (reference, s.attachCall reference callId bridged)
  | event payload => do
    let hangup ← (Call.Hangup.ofPayload payload).toOption
    let reference ← hangup.data.meetingId
    return (reference, s.attachCall reference hangup.id hangup.bridged)
  | _ => none

def transcript (s : Service) (d : Deployment) : Happening → List Exchange
  | command (.create draft) => d.transcript [] (s.create draft).run
  | command (.get token) => d.transcript [] (s.get token).run
  | command (.delete token) => d.transcript [] (s.delete token).run
  | command (.attachCall reference callId bridged) =>
    d.transcript [] (s.attachCall reference callId bridged).run
  | command (.submit token answer) => d.transcript [] (s.submit token answer).run
  | command (.sweep cutoff) => d.transcript [] (Service.sweep cutoff)
  | event payload => d.transcript [] (s.takeEvent payload)
  | _ => []

end Happening

namespace Moment

variable (s : Service) (x : Moment)

def isCreated : Bool :=
  match x.reply with
  | .created (.ok _) => true
  | _ => false

/-- Whether a token was rejected in a moment. An event is not answered, but what it asked for has
failed all the same. -/
def isRejected : Bool :=
  match x.happening with
  | .event _ => (x.happening.attempt? s).any fun a => Service.isRejection (x.before.run a.2.run).1
  | _ => x.reply.isRejection

def isNotAllowed : Bool :=
  match x.reply with
  | .submitted (.error (.notAllowed _)) => true
  | _ => false

def isLost : Bool :=
  match x.reply with
  | .submitted (.error _) => (x.happening.transcript s x.before).any Exchange.isPush
  | _ => false

def swept : Nat :=
  match x.happening with
  | .command (.sweep cutoff) => (x.before.run (Service.sweep cutoff)).1
  | _ => 0

/-- That what is counted in a moment is what has come of it. -/
structure Accounted (events : List Event) : Prop where
  created : weight .created events = if x.isCreated then 1 else 0
  rejected : weight (.rejected .malformed) events + weight (.rejected .invalid) events =
    if x.isRejected s then 1 else 0
  ended : ∀ outcome, weight (.ended outcome) events =
    if x.happening.outcome? s x.before = some outcome then 1 else 0
  answered : weight (.answered .success) events = if x.isTaken then 1 else 0
  notAllowed : weight (.answered .notAllowed) events = if x.isNotAllowed then 1 else 0
  lost : weight (.answered .error) events = if x.isLost s then 1 else 0
  swept : weight .swept events = x.swept

end Moment

open Service

variable {s : Service} {d : Deployment}

theorem Happening.tally_befall (c : Counter) (x : Happening) :
    (x.befall s d).2.tally.of c.series =
      d.tally.of c.series + weight c (counted (x.transcript s d)) := by
  have run {α : Type} (p : Program α) : (d.run p).2.tally.of c.series =
      d.tally.of c.series + weight c (counted (d.transcript [] p)) :=
    (Nat.add_zero _).symm.trans (d.tally_run p [] c)
  cases x with
  | event payload =>
    simp only [Happening.befall, Happening.transcript]
    exact run _
  | setClocks => rfl
  | command c =>
    simp only [Happening.befall]
    cases c with
    | create | get | delete | attachCall | submit | sweep =>
      simp only [Platform.obey, tell_eq, Happening.transcript]
      exact run _
    | setClock | linkChat | unlinkChat => rfl

/-- What an event asks for comes first when it is taken; in the end it is counted. -/
theorem takeEvent_eq (s : Service) (payload : List UInt8) : s.takeEvent payload =
    (match Call.Hangup.ofPayload payload with
    | .error _ => pure .unparseable
    | .ok hangup => s.takeHangup hangup) >>= fun outcome => do
      Program.answer (.count (.callEnded outcome))
      return outcome := by
  unfold takeEvent
  cases Call.Hangup.ofPayload payload with
  | error failure => rfl
  | ok hangup => rfl

theorem transcript_takeHangup (s : Service) (d : Deployment) (hangup : Call.Hangup) :
    d.transcript [] (s.takeHangup hangup) = (hangup.data.meetingId.map fun reference =>
      d.transcript [] (s.attachCall reference hangup.id hangup.bridged).run).getD [] := by
  unfold takeHangup
  cases hangup.data.meetingId with
  | none => rfl
  | some reference =>
    dsimp only [Option.map_some, Option.getD_some]
    rw [Deployment.transcript_bind]
    generalize d.transcript [] (s.attachCall reference hangup.id hangup.bridged).run = past
    generalize d.run (s.attachCall reference hangup.id hangup.bridged).run = x
    obtain ⟨fault | link | link, d'⟩ := x
    · rfl
    · rfl
    · rfl

theorem transcript_takeEvent (s : Service) (d : Deployment) (payload : List UInt8) :
    (Happening.event payload).transcript s d =
      Exchange.counts (.callEnded (d.run (s.takeEvent payload)).1) ::
        (((Happening.event payload).attempt? s).map fun a =>
          d.transcript [] a.2.run).getD [] := by
  change d.transcript [] (s.takeEvent payload) = _
  rw [takeEvent_eq, Deployment.transcript_bind, Deployment.run_bind]
  refine congrArg (Exchange.counts _ :: ·) ?_
  cases hread : Call.Hangup.ofPayload payload with
  | error failure =>
    simp only [Happening.attempt?, hread]
    rfl
  | ok hangup =>
    refine (transcript_takeHangup s d hangup).trans ?_
    cases hmeeting : hangup.data.meetingId with
    | none => simp [Happening.attempt?, hread, hmeeting, Except.toOption]
    | some reference => simp [Happening.attempt?, hread, hmeeting, Except.toOption]

theorem isRejection_eq_false {α : Type} {r : Except Fault α} (h : r ≠ .error .invalidToken) :
    isRejection r = false := by
  unfold isRejection
  split
  · exact absurd rfl h
  · rfl

theorem Moment.Accounted.of_presenting {α : Type} {r : Except Fault α} {x : Moment}
    {events : List Event} {outcome? : Option Call.Outcome} {plain : Prop}
    (h : Presenting plain events r) (hp : plain) (created : x.isCreated = false)
    (rejected : x.isRejected s = isRejection r)
    (ended : x.happening.outcome? s x.before = outcome?) (answered : x.isTaken = false)
    (notAllowed : x.isNotAllowed = false) (lost : x.isLost s = false) (swept : x.swept = 0) :
    x.Accounted s ((outcome?.map Event.callEnded).toList ++ events) := by
  have hended : ∀ c, weight c ((outcome?.map Event.callEnded).toList ++ events) =
      outcome?.elim 0 (fun o => (Event.callEnded o).weight c) + weight c events := by
    intro c
    cases outcome? with
    | none => exact (Nat.zero_add _).symm
    | some o => exact weight_cons c _ events
  have hother : ∀ c, (∀ o, (Event.callEnded o).weight c = 0) →
      weight c ((outcome?.map Event.callEnded).toList ++ events) = weight c events := by
    intro c hc
    rw [hended]
    cases outcome? with
    | none => exact Nat.zero_add _
    | some o => exact (congrArg (· + _) (hc o)).trans (Nat.zero_add _)
  have hrejected : weight (.rejected .malformed) events + weight (.rejected .invalid) events =
      if isRejection r then 1 else 0 := by
    cases h with
    | accepted hr =>
      rw [isRejection_eq_false (hr hp)]
      rfl
    | rejected reason => cases reason <;> rfl
  have hnone : ∀ c, (∀ reason, (Event.tokenRejected reason).weight c = 0) →
      weight c events = 0 := by
    intro c hc
    cases h with
    | accepted => rfl
    | rejected reason => exact hc reason
  constructor
  · rw [hother _ fun _ => rfl, hnone _ fun _ => rfl, created]
    rfl
  · rw [hother _ fun _ => rfl, hother _ fun _ => rfl, hrejected, rejected]
  · intro outcome
    rw [hended, hnone _ fun _ => rfl, ended]
    cases outcome? with
    | none => rfl
    | some o => simp [Event.weight, Event.counter?]
  · rw [hother _ fun _ => rfl, hnone _ fun _ => rfl, answered]
    rfl
  · rw [hother _ fun _ => rfl, hnone _ fun _ => rfl, notAllowed]
    rfl
  · rw [hother _ fun _ => rfl, hnone _ fun _ => rfl, lost]
    rfl
  · rw [hother _ fun _ => rfl, hnone _ fun _ => rfl, swept]

theorem Moment.Accounted.of_command {α : Type} {r : Except Fault α} {x : Moment}
    {events : List Event} {plain : Prop} (h : Presenting plain events r) (hp : plain)
    (created : x.isCreated = false)
    (rejected : x.isRejected s = isRejection r)
    (ended : x.happening.outcome? s x.before = none) (answered : x.isTaken = false)
    (notAllowed : x.isNotAllowed = false) (lost : x.isLost s = false) (swept : x.swept = 0) :
    x.Accounted s events := by
  simpa using of_presenting h hp created rejected ended answered notAllowed lost swept

theorem Moment.Accounted.idle {x : Moment} (created : x.isCreated = false)
    (rejected : x.isRejected s = false) (ended : x.happening.outcome? s x.before = none)
    (answered : x.isTaken = false) (notAllowed : x.isNotAllowed = false)
    (lost : x.isLost s = false) (swept : x.swept = 0) : x.Accounted s [] := by
  have hnothing : Presenting True [] (.ok () : Except Fault Unit) := .accepted fun _ => nofun
  exact .of_command hnothing trivial created rejected ended answered notAllowed lost swept

theorem Moment.Accounted.of_answering {x : Moment} {events : List Event} {pushed : Bool}
    {r : Except Fault Unit} {token answer : String} {plain : Prop}
    (h : Answering plain events pushed r) (hp : plain)
    (happening : x.happening = .command (.submit token answer)) (reply : x.reply = .submitted r)
    (transcript : (x.happening.transcript s x.before).any Exchange.isPush = pushed) :
    x.Accounted s events := by
  obtain ⟨_, before, _, after⟩ := x
  dsimp only at happening reply transcript
  subst happening reply
  have hlost (fault : Fault) : Moment.isLost s ⟨.command (.submit token answer), before,
      .submitted (.error fault), after⟩ = pushed := transcript
  cases h with
  | @missed fault h =>
    cases fault with
    | invalidToken | notAllowed => cases h hp
    | _ => exact ⟨rfl, rfl, fun _ => rfl, rfl, rfl, by rw [hlost]; rfl, rfl⟩
  | rejected reason =>
    refine ⟨rfl, ?_, fun _ => rfl, rfl, rfl, by rw [hlost]; rfl, rfl⟩
    cases reason <;> rfl
  | notAllowed reason => exact ⟨rfl, rfl, fun _ => rfl, rfl, rfl, by rw [hlost]; rfl, rfl⟩
  | @failed fault h =>
    cases fault with
    | invalidToken | notAllowed => cases h hp
    | _ => exact ⟨rfl, rfl, fun _ => rfl, rfl, rfl, by rw [hlost]; rfl, rfl⟩
  | noted => exact ⟨rfl, rfl, fun _ => rfl, rfl, rfl, rfl, rfl⟩

theorem Happening.of_attempt? {x : Happening} {reference : String} {a : Action CallLink}
    (h : x.attempt? s = some (reference, a)) :
    ∃ callId bridged, a = s.attachCall reference callId bridged := by
  unfold attempt? at h
  split at h
  · cases h
    exact ⟨_, _, rfl⟩
  · obtain ⟨hangup, -, h⟩ := Option.bind_eq_some_iff.mp h
    obtain ⟨reference', -, h⟩ := Option.bind_eq_some_iff.mp h
    cases h
    exact ⟨_, _, rfl⟩
  · cases h

theorem accounted_event (h : d.Lifelike) (payload : List UInt8) :
    ((Happening.event payload).moment s d).Accounted s
      (counted ((Happening.event payload).transcript s d)) := by
  let x : Moment := (Happening.event payload).moment s d
  rw [transcript_takeEvent]
  cases hattempt : (Happening.event payload).attempt? s with
  | none =>
    have hrejected : x.isRejected s = false := by
      change ((Happening.event payload).attempt? s).any _ = false
      rw [hattempt]
      rfl
    have hnothing : Presenting True [] (.ok () : Except Fault Unit) := .accepted fun _ => nofun
    exact Moment.Accounted.of_presenting hnothing trivial rfl hrejected rfl rfl rfl rfl rfl
  | some a =>
    have hrejected : x.isRejected s = isRejection (d.run a.2.run).1 := by
      change ((Happening.event payload).attempt? s).any _ = _
      rw [hattempt]
      rfl
    have hpresenting : Presenting (∀ e ∈ d.transcript [] a.2.run, e.Plain)
        (counted (d.transcript [] a.2.run)) (d.run a.2.run).1 := by
      obtain ⟨callId, bridged, ha⟩ := Happening.of_attempt? hattempt
      rw [ha]
      exact (Deployment.of_ensures (s.ends_attachCall a.1 callId bridged) d).presenting
    exact Moment.Accounted.of_presenting hpresenting (h.plain _) rfl hrejected rfl rfl rfl rfl rfl

theorem accounted_sweep (d : Deployment) (cutoff : Int64) :
    ((Happening.command (.sweep cutoff)).moment s d).Accounted s
      (counted ((Happening.command (.sweep cutoff)).transcript s d)) := by
  have hsweep := (Deployment.of_ensures (Service.ensures_sweep cutoff) d).counted
  simp only [Happening.moment, Happening.befall, Platform.obey, tell_eq, Happening.transcript]
  generalize d.transcript [] (Service.sweep cutoff) = past at hsweep
  have hswept {r : Reply} {d' : Deployment} : Moment.swept
      ⟨.command (.sweep cutoff), d, r, d'⟩ = (d.run (Service.sweep cutoff)).1 := rfl
  rcases hsweep with ⟨hcounted, hnone⟩ | hcounted
  · rw [hcounted]
    exact .idle rfl rfl rfl rfl rfl rfl (hswept.trans hnone)
  · rw [hcounted]
    exact ⟨rfl, rfl, fun _ => rfl, rfl, rfl, rfl, hswept.symm⟩

theorem accounted_create (d : Deployment) (draft : Meeting.Draft) :
    ((Happening.command (.create draft)).moment s d).Accounted s
      (counted ((Happening.command (.create draft)).transcript s d)) := by
  have hcreate := (Deployment.of_ensures (s.ends_create draft) d).counted
  simp only [Happening.moment, Happening.befall, Platform.obey, tell_eq, Happening.transcript]
  generalize d.transcript [] (s.create draft).run = past at hcreate
  generalize d.run (s.create draft).run = z at hcreate
  obtain ⟨r, d'⟩ := z
  rcases hcreate with ⟨hcounted, fault, rfl⟩ | ⟨hcounted, ticket, rfl⟩
  · rw [hcounted]
    exact .idle rfl rfl rfl rfl rfl rfl rfl
  · rw [hcounted]
    exact ⟨rfl, rfl, fun _ => rfl, rfl, rfl, rfl, rfl⟩

/-- What is counted in a moment is what has come of it. -/
theorem accounted (h : d.Lifelike) (x : Happening) :
    (x.moment s d).Accounted s (counted (x.transcript s d)) := by
  cases x with
  | event payload => exact accounted_event h payload
  | setClocks => exact .idle rfl rfl rfl rfl rfl rfl rfl
  | command c =>
    cases c with
    | setClock | linkChat | unlinkChat => exact .idle rfl rfl rfl rfl rfl rfl rfl
    | create draft => exact accounted_create d draft
    | sweep cutoff => exact accounted_sweep d cutoff
    | submit token answer =>
      have hanswering := (Deployment.of_ensures (s.ends_submit token answer) d).answering
      simp only [Happening.moment, befall_submit]
      exact .of_answering hanswering (h.plain _) rfl rfl rfl
    | get token =>
      have hpresenting := (Deployment.of_ensures (s.ends_get token) d).presenting
      simp only [Happening.moment, Happening.befall, Platform.obey, tell_eq]
      exact .of_command hpresenting (h.plain _) rfl rfl rfl rfl rfl rfl rfl
    | delete token =>
      have hpresenting := (Deployment.of_ensures (s.ends_delete token) d).presenting
      simp only [Happening.moment, Happening.befall, Platform.obey, tell_eq]
      exact .of_command hpresenting (h.plain _) rfl rfl rfl rfl rfl rfl rfl
    | attachCall reference callId bridged =>
      have hpresenting := (Deployment.of_ensures
        (s.ends_attachCall reference callId bridged) d).presenting
      simp only [Happening.moment, Happening.befall, Platform.obey, tell_eq]
      exact .of_command hpresenting (h.plain _) rfl rfl rfl rfl rfl rfl rfl

theorem Service.Attaching.unknown {reference callId : String} {bridged : Bool}
    {past : List Exchange} (h : s.Attaching reference callId bridged past (.error .invalidToken))
    (plain : ∀ e ∈ past, e.Plain) (id : String) : ¬s.Resolves reference id := by
  cases h with
  | rejected reason unknown => exact unknown id
  | missed read => cases read.not_refusal plain
  | unnoted read => cases plain _ List.mem_cons_self _ rfl

theorem isRejected_event (s : Service) (d : Deployment) (payload : List UInt8) :
    ((Happening.event payload).moment s d).isRejected s =
      ((Happening.event payload).attempt? s).any fun a => isRejection (d.run a.2.run).1 := rfl

/-- To note a call in the meeting that an identifier means does not fail for a token. -/
theorem isRejected_of_isIdentifier (h : d.Lifelike) {x : Happening} {reference : String}
    {a : Action CallLink} (attempt : x.attempt? s = some (reference, a))
    (hid : Meeting.Identifier.isIdentifier reference) : (x.moment s d).isRejected s = false := by
  obtain ⟨id, known⟩ := exists_resolves (s := s) hid
  have hknown (callId : String) (bridged : Bool) :
      isRejection (d.run (s.attachCall reference callId bridged).run).1 = false := by
    refine isRejection_eq_false fun hr => ?_
    have hattaching := Deployment.of_ensures (s.ends_attachCall reference callId bridged) d
    rw [hr] at hattaching
    exact hattaching.unknown (h.plain _) id known
  cases x with
  | setClocks => cases attempt
  | event payload =>
    obtain ⟨callId, bridged, ha⟩ := Happening.of_attempt? attempt
    rw [isRejected_event, attempt, Option.any_some]
    dsimp only
    rw [ha]
    exact hknown callId bridged
  | command c =>
    cases c with
    | attachCall reference' callId bridged =>
      cases attempt
      simp only [Happening.moment, Happening.befall, Platform.obey, tell_eq]
      exact hknown callId bridged
    | _ => cases attempt

theorem Happening.lifelike (h : d.Lifelike) (x : Happening) : (x.befall s d).2.Lifelike :=
  x.induction (fun _ q h => h.handle q) (fun _ _ _ h => ⟨h.store, h.chat, h.engine⟩)
    (fun _ _ h => ⟨h.store, h.chat, h.engine⟩) h

theorem sum_eq_countP {α : Type} {p : α → Bool} {f : α → Nat} {as : List α}
    (h : ∀ a ∈ as, f a = if p a then 1 else 0) : (as.map f).sum = as.countP p := by
  induction as with
  | nil => rfl
  | cons a as ih =>
    rw [List.forall_mem_cons] at h
    rw [List.map_cons, List.sum_cons, h.1, ih h.2, List.countP_cons, Nat.add_comm]

section

variable {d₀ : Deployment} {ms : List Moment}

def Moment.counted (s : Service) (x : Moment) : List Event :=
  Rendezvous.counted (x.happening.transcript s x.before)

theorem Course.lifelike (course : Course s d₀ ms d) (h : d₀.Lifelike) : d.Lifelike := by
  induction course with
  | start => exact h
  | next _ x ih => exact x.lifelike ih

theorem Course.tally_eq (course : Course s d₀ ms d) (c : Counter) :
    d.tally.of c.series = d₀.tally.of c.series +
      (ms.map fun x => weight c (x.counted s)).sum := by
  induction course with
  | start => rfl
  | @next ms d course x ih =>
    rw [x.tally_befall, ih, List.map_cons, List.sum_cons, Nat.add_assoc]
    exact congrArg (_ + ·) (Nat.add_comm ..)

theorem Course.accounted (course : Course s d₀ ms d) (h : d₀.Lifelike) :
    ∀ x ∈ ms, x.Accounted s (x.counted s) := by
  induction course with
  | start => exact List.forall_mem_nil _
  | next course x ih =>
    exact List.forall_mem_cons.mpr ⟨Rendezvous.accounted (course.lifelike h) x, ih⟩

theorem Course.identified (course : Course s d₀ ms d) (h : d₀.Lifelike) :
    ∀ x ∈ ms, ∀ reference a, x.happening.attempt? s = some (reference, a) →
      Meeting.Identifier.isIdentifier reference → x.isRejected s = false := by
  induction course with
  | start => exact List.forall_mem_nil _
  | next course x ih =>
    exact List.forall_mem_cons.mpr
      ⟨fun _ _ attempt => isRejected_of_isIdentifier (course.lifelike h) attempt, ih⟩

/-- In each course the counters grow by what has come of its moments: by the meetings that were
created; by the moments in which a token was rejected, over both reasons, to which an identifier in
place of a token adds none; by the events taken, each under its outcome; by the answers to surveys
that were noted, that were not allowed, and that the call engine was told of in vain, and by no
others; and by the meetings that sweeps have removed. -/
theorem counters_account (course : Course s d₀ ms d) (lifelike : d₀.Lifelike) :
    d.tally.of Counter.created.series =
      d₀.tally.of Counter.created.series + ms.countP Moment.isCreated ∧
    d.tally.of (Counter.rejected .malformed).series + d.tally.of (Counter.rejected .invalid).series =
      d₀.tally.of (Counter.rejected .malformed).series +
        d₀.tally.of (Counter.rejected .invalid).series + ms.countP (Moment.isRejected s) ∧
    (∀ outcome, d.tally.of (Counter.ended outcome).series =
      d₀.tally.of (Counter.ended outcome).series +
        ms.countP fun x => x.happening.outcome? s x.before = some outcome) ∧
    d.tally.of (Counter.answered .success).series =
      d₀.tally.of (Counter.answered .success).series + ms.countP Moment.isTaken ∧
    d.tally.of (Counter.answered .notAllowed).series =
      d₀.tally.of (Counter.answered .notAllowed).series + ms.countP Moment.isNotAllowed ∧
    d.tally.of (Counter.answered .error).series =
      d₀.tally.of (Counter.answered .error).series + ms.countP (Moment.isLost s) ∧
    d.tally.of Counter.swept.series =
      d₀.tally.of Counter.swept.series + (ms.map Moment.swept).sum ∧
    ∀ x ∈ ms, ∀ reference a, x.happening.attempt? s = some (reference, a) →
      Meeting.Identifier.isIdentifier reference → x.isRejected s = false := by
  have accounted := course.accounted lifelike
  refine ⟨?_, ?_, fun outcome => ?_, ?_, ?_, ?_, ?_, course.identified lifelike⟩
  · rw [course.tally_eq, sum_eq_countP fun x hx => (accounted x hx).created]
  · have hsum : (ms.map fun x => weight (.rejected .malformed) (x.counted s)).sum +
        (ms.map fun x => weight (.rejected .invalid) (x.counted s)).sum =
          ms.countP (Moment.isRejected s) := by
      rw [← List.sum_map_add]
      exact sum_eq_countP fun x hx => (accounted x hx).rejected
    rw [course.tally_eq, course.tally_eq (.rejected .invalid)]
    omega
  · have hsum : (ms.map fun x => weight (.ended outcome) (x.counted s)).sum =
        ms.countP fun x => x.happening.outcome? s x.before = some outcome :=
      sum_eq_countP fun x hx => by simpa using (accounted x hx).ended outcome
    rw [course.tally_eq, hsum]
  · rw [course.tally_eq, sum_eq_countP fun x hx => (accounted x hx).answered]
  · rw [course.tally_eq, sum_eq_countP fun x hx => (accounted x hx).notAllowed]
  · rw [course.tally_eq, sum_eq_countP fun x hx => (accounted x hx).lost]
  · rw [course.tally_eq, List.map_congr_left fun x hx => (accounted x hx).swept]

end

namespace Happening.Sample

open System.Sample

theorem lifelike_start : (Deployment.start 0 1 .accepting (.present answers [])
    (entropy 0)).Lifelike where
  store := nofun
  chat _ := .accepted
  engine n := by
    cases n with
    | zero => exact .unavailable _
    | succ n => exact .accepted

section

variable (s : Service) (tally : Tally)

theorem submit_lost : ((command (.submit (token s) " good ")).moment s
    (state [called s] [] (entropy 2) tally)).isLost s = true := by
  simp only [moment, befall, Platform.obey, Moment.isLost, transcript]
  unfold Service.submit Service.redeem
  rw [redeem_token, tidyAnswer_spaced]
  rfl

theorem submit_taken : ((command (.submit (token s) " good ")).moment s
    (state [called s] [(push s, answers 0)] (entropy 2) tally)).isTaken = true := by
  simp only [moment, befall, Platform.obey, Moment.isTaken]
  unfold Service.submit Service.redeem
  rw [redeem_token, tidyAnswer_spaced]
  rfl

end

end Happening.Sample

open Happening.Sample System.Sample in
/-- An answer that the call engine refuses at first is counted twice, each time as what it is. -/
theorem counted_at_second_attempt : ∃ ms d,
    Course service (.start 0 1 .accepting (.present answers []) (entropy 0)) ms d ∧
    d.tally.of (Counter.answered .error).series = ms.countP (Moment.isLost service) ∧
    d.tally.of (Counter.answered .success).series = ms.countP Moment.isTaken ∧
    0 < ms.countP (Moment.isLost service) ∧ 0 < ms.countP Moment.isTaken := by
  obtain ⟨tally₁, h₁⟩ := create_state service .empty
  obtain ⟨tally₂, h₂⟩ := attach_state service tally₁
  obtain ⟨tally₃, h₃⟩ := (submit_state service tally₂).1
  have course : Course service (state [] [] (entropy 0) .empty) [] _ := .start
  have course := course.next (.command (.create draft))
  rw [h₁] at course
  have course := course.next (.command (.attachCall id "c" true))
  rw [h₂] at course
  have course := course.next (.command (.submit (token service) " good "))
  rw [h₃] at course
  have course := course.next (.command (.submit (token service) " good "))
  obtain ⟨-, -, -, answered, -, lost, -, -⟩ := counters_account course lifelike_start
  refine ⟨_, _, course, ?_, ?_, ?_, ?_⟩
  · exact lost.trans (Nat.zero_add _)
  · exact answered.trans (Nat.zero_add _)
  · exact List.countP_pos_iff.mpr ⟨_, by simp, submit_lost service tally₂⟩
  · exact List.countP_pos_iff.mpr ⟨_, by simp, submit_taken service tally₃⟩

end Rendezvous
