import Mathlib.Algebra.GroupWithZero.Nat
import Rendezvous.Proofs.Collaborator.Client
import Rendezvous.Proofs.Metrics.Counter
import Rendezvous.Proofs.Service.Transcript
import Rendezvous.Store.Database

namespace Rendezvous

open Metrics Store

namespace Exchange

/-- The event that is counted in an exchange. The store counts its operations by itself. -/
def event? : Exchange → Option Event
  | ⟨.count event, _⟩ => some event
  | _ => none

def fault? : Exchange → Option Fault
  | ⟨.store _, .error fault⟩ => some fault
  | ⟨.closeChat _, .error fault⟩ => some fault
  | ⟨.setVariables .., .error fault⟩ => some fault
  | _ => none

def isPush : Exchange → Bool
  | ⟨.setVariables .., _⟩ => true
  | _ => false

/-- That nobody else than the service turns a caller away. -/
def Plain (e : Exchange) : Prop := ∀ fault, e.fault? = some fault → fault.isRefusal = false

end Exchange

open Exchange

def counted (past : List Exchange) : List Event := past.filterMap event?

theorem counted_cons (e : Exchange) (past : List Exchange) :
    counted (e :: past) = counted [e] ++ counted past :=
  List.filterMap_append (l := [e])

def weight (c : Counter) (events : List Event) : Nat := (events.map (Event.weight c)).sum

theorem weight_cons (c : Counter) (event : Event) (events : List Event) :
    weight c (event :: events) = event.weight c + weight c events := by
  simp [weight]

theorem weight_append (c : Counter) (events events' : List Event) :
    weight c (events ++ events') = weight c events + weight c events' := by
  simp [weight]

theorem Store.DatabaseFault.not_refusal (f : DatabaseFault) : f.fault.isRefusal = false := by
  cases f with
  | refused detail code =>
    cases code with
    | none => rfl
    | some code =>
      simp only [DatabaseFault.fault]
      split <;> rfl
  | _ => rfl

namespace Deployment

variable {α : Type} {d : Deployment}

theorem tally_perform (d : Deployment) (op : Operation) (c : Counter) :
    (d.perform op).2.tally.of c.series = d.tally.of c.series := by
  unfold perform
  cases d.faults op.kind with
  | some fault => rfl
  | none =>
    dsimp only [Operation.event?]
    by_cases hping : op.kind = .ping
    · rw [if_pos hping]
      rfl
    · rw [if_neg hping]
      exact Tally.of_count_counter _ _ c

theorem tally_handle (d : Deployment) (q : Question) (c : Counter) :
    (d.handle q).2.tally.of c.series =
      d.tally.of c.series + weight c (counted [⟨q, (d.handle q).1⟩]) := by
  cases q with
  | store op => exact d.tally_perform op c
  | count event => exact Tally.of_count_counter d.tally event c
  | _ => rfl

/-- In a run each counter grows by what the counted events give it. -/
theorem tally_run (d : Deployment) (p : Program α) (past : List Exchange) (c : Counter) :
    (d.run p).2.tally.of c.series + weight c (counted past) =
      d.tally.of c.series + weight c (counted (d.transcript past p)) := by
  induction p generalizing d past with
  | done a => rfl
  | ask q next ih =>
    have hrun : (d.run (.ask q next)).2.tally.of c.series +
        weight c (counted (⟨q, (d.handle q).1⟩ :: past)) = (d.handle q).2.tally.of c.series +
          weight c (counted (d.transcript past (.ask q next))) := ih _ _ _
    have hask := d.tally_handle q c
    have hsplit : weight c (counted (⟨q, (d.handle q).1⟩ :: past)) =
        weight c (counted [⟨q, (d.handle q).1⟩]) + weight c (counted past) := by
      rw [counted_cons, weight_append]
    omega

/-- Whether the store and the collaborators fail only in ways in which they can fail. -/
structure Lifelike (d : Deployment) : Prop where
  store : ∀ kind fault, d.faults kind = some fault →
    fault = .notFound ∨ ∃ f : DatabaseFault, fault = f.fault
  chat : d.chat.Genuine
  engine : d.engine.Genuine

theorem Lifelike.perform (h : d.Lifelike) {op : Operation} {fault : Fault}
    (hfault : (d.perform op).1 = .error fault) : fault.isRefusal = false := by
  cases hop : d.faults op.kind with
  | some fault' =>
    rw [perform_of_fault hop] at hfault
    cases hfault
    rcases h.store _ _ hop with rfl | ⟨f, rfl⟩
    · rfl
    · exact f.not_refusal
  | none =>
    obtain ⟨tally, hperform⟩ := perform_of_healthy hop
    rw [hperform] at hfault
    rcases Memory.fault_of_perform hfault with rfl | rfl
    · rfl
    · rfl

theorem Lifelike.answer (h : d.Lifelike) (q : Question) :
    (⟨q, (d.handle q).1⟩ : Exchange).Plain := by
  intro fault hfault
  cases q with
  | store op =>
    change (⟨.store op, (d.perform op).1⟩ : Exchange).fault? = _ at hfault
    cases hop : (d.perform op).1 with
    | ok v =>
      rw [hop] at hfault
      cases hfault
    | error fault' =>
      rw [hop] at hfault
      cases hfault
      exact h.perform hop
  | closeChat link =>
    change (⟨.closeChat link, (d.chat.call link).1⟩ : Exchange).fault? = _ at hfault
    have told := (h.chat.call link).1
    generalize (d.chat.call link).1 = r at hfault told
    cases r with
    | ok v => cases hfault
    | error fault' =>
      cases hfault
      exact told.not_refusal rfl
  | setVariables domainId callId vars =>
    change (⟨.setVariables domainId callId vars,
      (d.engine.call ⟨domainId, callId, vars⟩).1⟩ : Exchange).fault? = _ at hfault
    have told := (h.engine.call ⟨domainId, callId, vars⟩).1
    generalize (d.engine.call ⟨domainId, callId, vars⟩).1 = r at hfault told
    cases r with
    | ok v => cases hfault
    | error fault' =>
      cases hfault
      exact told.not_refusal rfl
  | _ => cases hfault

theorem Lifelike.handle (h : d.Lifelike) (q : Question) : (d.handle q).2.Lifelike := by
  cases q with
  | store op =>
    change (d.perform op).2.Lifelike
    cases hop : d.faults op.kind with
    | some fault =>
      rw [perform_of_fault hop]
      exact h
    | none =>
      obtain ⟨tally, hperform⟩ := perform_of_healthy hop
      rw [hperform]
      exact ⟨h.store, h.chat, h.engine⟩
  | closeChat link => exact ⟨h.store, (h.chat.call link).2, h.engine⟩
  | setVariables domainId callId vars => exact ⟨h.store, h.chat, (h.engine.call _).2⟩
  | clock | octets | count => exact ⟨h.store, h.chat, h.engine⟩

theorem Lifelike.transcript (h : d.Lifelike) (p : Program α) {past : List Exchange}
    (plain : ∀ e ∈ past, e.Plain) : ∀ e ∈ d.transcript past p, e.Plain := by
  induction p generalizing d past with
  | done a => exact plain
  | ask q next ih =>
    exact ih _ (h.handle q) (List.forall_mem_cons.mpr ⟨h.answer q, plain⟩)

theorem Lifelike.plain (h : d.Lifelike) (p : Program α) : ∀ e ∈ d.transcript [] p, e.Plain :=
  h.transcript p (by simp)

end Deployment

namespace Service

variable {past : List Exchange} {id : String}

/-- What is counted by an action that finds a meeting: only that its token was rejected, if it was.
If `plain` holds, nothing else is told as the rejection of a token. -/
inductive Presenting {α : Type} (plain : Prop) : List Event → Except Fault α → Prop where
  | accepted {r : Except Fault α} (h : plain → r ≠ .error .invalidToken) : Presenting plain [] r
  | rejected (reason : Rejection) :
      Presenting plain [.tokenRejected reason] (.error .invalidToken)

theorem Presenting.failed {α : Type} {plain : Prop} {fault : Fault}
    (h : plain → fault.isRefusal = false) :
    Presenting plain [] (.error fault : Except Fault α) :=
  .accepted fun hp heq => by
    cases heq
    cases h hp

theorem Fetching.counted {r : Except Fault Meeting} (h : Fetching id past r) :
    counted past = [] ∧ past.any isPush = false := by
  cases h with
  | missed | expired | seen => exact ⟨rfl, rfl⟩

theorem Fetching.not_refusal {fault : Fault} (h : Fetching id past (.error fault))
    (plain : ∀ e ∈ past, e.Plain) : fault.isRefusal = false := by
  cases h with
  | missed => exact plain _ List.mem_cons_self _ rfl
  | expired => rfl

theorem Getting.presenting {r : Except Fault (Option Meeting.View)} (h : Getting past r) :
    Presenting (∀ e ∈ past, e.Plain) (Rendezvous.counted past) r := by
  cases h with
  | rejected reason => exact .rejected reason
  | gone read =>
    rw [read.counted.1]
    exact .accepted fun _ => nofun
  | failed read =>
    rw [read.counted.1]
    exact .failed read.not_refusal
  | seen read view =>
    rw [read.counted.1]
    exact .accepted fun _ => nofun

theorem Deleting.presenting {r : Except Fault Unit} (h : Deleting past r) :
    Presenting (∀ e ∈ past, e.Plain) (Rendezvous.counted past) r := by
  cases h with
  | rejected reason => exact .rejected reason
  | asked id r =>
    rcases r with fault | _
    · exact .failed fun plain => plain _ List.mem_cons_self _ rfl
    · exact .accepted fun _ => nofun

theorem Closing.counted {past' : List Exchange} (h : Closing id past past') :
    counted past' = counted past := by
  cases h with
  | unlinked | closed => rfl

theorem Attaching.presenting {s : Service} {reference callId : String} {bridged : Bool}
    {r : Except Fault CallLink} (h : s.Attaching reference callId bridged past r) :
    Presenting (∀ e ∈ past, e.Plain) (Rendezvous.counted past) r := by
  cases h with
  | rejected reason unknown => exact .rejected reason
  | missed read =>
    rw [read.counted.1]
    exact .failed read.not_refusal
  | alreadyLinked read =>
    rw [read.counted.1]
    exact .accepted fun _ => nofun
  | @unnoted id past m read fault =>
    change Presenting _ (Rendezvous.counted past) _
    rw [read.counted.1]
    exact .failed fun plain => plain _ List.mem_cons_self _ rfl
  | @linked id past past' m read closing =>
    rw [closing.counted]
    change Presenting _ (Rendezvous.counted past) _
    rw [read.counted.1]
    exact .accepted fun _ => nofun

/-- What is counted when an answer to the survey is submitted, whether the call engine is told of
it, and what the submission ends with. -/
inductive Answering (plain : Prop) : List Event → Bool → Except Fault Unit → Prop where
  | missed {fault : Fault} (h : plain → fault.isRefusal = false) :
      Answering plain [] false (.error fault)
  | rejected (reason : Rejection) :
      Answering plain [.tokenRejected reason] false (.error .invalidToken)
  | notAllowed (reason : String) :
      Answering plain [.surveyAnswered .notAllowed] false (.error (.notAllowed reason))
  | failed {fault : Fault} (h : plain → fault.isRefusal = false) :
      Answering plain [.surveyAnswered .error] true (.error fault)
  | noted : Answering plain [.surveyAnswered .success] true (.ok ())

theorem Submitting.answering {r : Except Fault Unit} (h : Submitting past r) :
    Answering (∀ e ∈ past, e.Plain) (Rendezvous.counted past) (past.any isPush) r := by
  cases h with
  | untidy reason => exact .missed fun _ => rfl
  | rejected reason => exact .rejected reason
  | missed read =>
    rw [read.counted.1, read.counted.2]
    exact .missed read.not_refusal
  | @notAllowed id past m read reason =>
    obtain ⟨hcounted, hpush⟩ := read.counted
    change Answering _ (_ :: Rendezvous.counted past) (false || past.any isPush) _
    rw [hcounted, hpush]
    exact .notAllowed reason
  | @refused id past m read callId value fault =>
    change Answering _ (_ :: Rendezvous.counted past) true _
    rw [read.counted.1]
    exact .failed fun plain => plain _ (List.mem_cons_of_mem _ List.mem_cons_self) _ rfl
  | @unnoted id past m read callId value fault =>
    change Answering _ (_ :: Rendezvous.counted past) true _
    rw [read.counted.1]
    exact .failed fun plain => plain _ (List.mem_cons_of_mem _ List.mem_cons_self) _ rfl
  | @noted id past m read callId value =>
    change Answering _ (_ :: Rendezvous.counted past) true _
    rw [read.counted.1]
    exact .noted

theorem Creating.counted {r : Except Fault Meeting.Ticket} (h : Creating past r) :
    counted past = [] ∧ (∃ fault, r = .error fault) ∨
      counted past = [.meetingCreated] ∧ ∃ ticket, r = .ok ticket := by
  cases h with
  | untidy fault | undrawn fault | unissued _ _ fault | refused _ _ _ _ fault =>
    exact .inl ⟨rfl, fault, rfl⟩
  | stored _ _ _ _ ticket => exact .inr ⟨rfl, ticket, rfl⟩

theorem Sweeping.counted {cutoff : Int64} {n : Nat} (h : Sweeping cutoff past n) :
    counted past = [] ∧ n = 0 ∨ counted past = [.swept n] := by
  cases h with
  | failed => exact .inl ⟨rfl, rfl⟩
  | swept => exact .inr rfl

end Service

end Rendezvous
