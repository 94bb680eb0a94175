import Rendezvous.Proofs.Isolation.Slot
import Rendezvous.Proofs.Sequence.Course

namespace Rendezvous

open Store

/-- Whether a question that concerns meetings concerns the one with an identifier only. -/
def Question.Regards (id : String) : Question → Prop
  | .store op => op.about? = some id
  | _ => True

/-- Whether a question, whatever was asked before, concerns no other meeting than the one with an
identifier, and creates none. -/
def Tends (id : String) (_ : List Exchange) : Question → Prop
  | .store (.get a) | .store (.delete a) | .store (.setCall a _ _) | .store (.setSatisfaction a _)
  | .store (.chatLink a) => a = id
  | .store _ => False
  | _ => True

theorem Tends.regards {id : String} {past : List Exchange} {q : Question} (h : Tends id past q) :
    q.Regards id ∧ ∀ m, q ≠ .store (.create m) := by
  cases q with
  | store op =>
    cases op with
    | create | deleteExpired | ping => exact h.elim
    | get | delete | setCall | setSatisfaction | chatLink => exact ⟨congrArg some h, nofun⟩
  | clock | octets | closeChat | setVariables | count => exact ⟨trivial, nofun⟩

def Service.referent? (s : Service) (reference : String) : Option String :=
  match s.cipher.redeem reference with
  | .ok id => some id
  | .error _ => if Meeting.Identifier.isIdentifier reference then some reference else none

/-- The identifier of the meeting that a happening is addressed to, if there is one: the meeting
that it is going to create, or the one that it names. -/
def Happening.addressee? (s : Service) (entropy : Entropy) : Happening → Option String
  | command (.create draft) => (Command.create draft).newId? entropy
  | command (.get token) => (s.cipher.redeem token).toOption
  | command (.delete token) => (s.cipher.redeem token).toOption
  | command (.submit token _) => (s.cipher.redeem token).toOption
  | command (.attachCall reference _ _) => s.referent? reference
  | command (.linkChat id _) => some id
  | command (.unlinkChat id) => some id
  | event payload => do
    let hangup ← (Call.Hangup.ofPayload payload).toOption
    let reference ← hangup.data.meetingId
    s.referent? reference
  | command (.sweep _) | command (.setClock _) | setClocks .. => none

/-- Whether what is addressed to somebody can concern the meeting with an identifier only. -/
def Concerns (addressee? : Option String) (id : String) : Prop := ∀ a, addressee? = some a → a = id

open Rendezvous.Action Program

section

variable (s : Service) {id : String} {past : List Exchange}

theorem tends_count (event : Metrics.Event) : Tends id past (.count event) := trivial

theorem tends_reject {α : Type} {good : List Exchange → α → Prop} (fault : Token.Fault) :
    (Service.reject fault).Gives (Tends id) good past := by
  cases fault with
  | malformed => exact gives_ask_bind (tends_count _) fun _ => gives_throw
  | invalid => exact gives_ask_bind (tends_count _) fun _ => gives_throw
  | noEntropy => exact gives_throw

theorem tends_redeem {token : String} (h : Concerns (s.cipher.redeem token).toOption id) :
    (s.redeem token).Gives (Tends id) (fun _ a => a = id) past := by
  unfold Service.redeem
  cases hr : s.cipher.redeem token with
  | ok a =>
    rw [hr] at h
    exact gives_pure (h a rfl)
  | error fault => exact tends_reject fault

theorem tends_resolve {reference : String} (h : Concerns (s.referent? reference) id) :
    (s.resolve reference).Gives (Tends id) (fun _ a => a = id) past := by
  unfold Service.referent? at h
  unfold Service.resolve
  cases hr : s.cipher.redeem reference with
  | ok a =>
    rw [hr] at h
    exact gives_pure (h a rfl)
  | error fault =>
    rw [hr] at h
    by_cases hid : Meeting.Identifier.isIdentifier reference
    · simp only [hid, if_true] at h ⊢
      exact gives_pure (h reference rfl)
    · simp only [hid]
      exact tends_reject fault

theorem tends_fetchVisible : (Service.fetchVisible id).Gives (Tends id)
    (fun _ _ => True) past := by
  refine gives_store_bind rfl fun m => gives_ask_bind trivial fun now => ?_
  by_cases hv : m.isVisibleAt now
  · simp only [hv, if_true]
    exact gives_pure trivial
  · simp only [hv]
    exact gives_throw

theorem tends_get {token : String} (h : Concerns (s.cipher.redeem token).toOption id) :
    (s.get token).Gives (Tends id) (fun _ _ => True) past := by
  refine (tends_redeem s h).bind fun past a ha => ?_
  subst ha
  refine gives_tryCatch ?_ fun past fault => ?_
  · exact tends_fetchVisible.bind fun _ _ _ => gives_pure trivial
  · cases fault with
    | notFound => exact gives_pure trivial
    | expired => exact gives_pure trivial
    | _ => exact gives_throw

theorem tends_delete {token : String} (h : Concerns (s.cipher.redeem token).toOption id) :
    (s.delete token).Gives (Tends id) (fun _ _ => True) past := by
  refine (tends_redeem s h).bind fun past a ha => ?_
  subst ha
  have hdelete : Tends a past (.store (.delete a)) := rfl
  exact gives_store hdelete fun _ => trivial

theorem tends_failSubmission {good : List Exchange → Unit → Prop} (status : Metrics.Submission)
    (fault : Fault) :
    (Service.failSubmission status fault).Gives (Tends id) good past :=
  gives_ask_bind (tends_count _) fun _ => gives_throw

theorem tends_submit {token : String} (h : Concerns (s.cipher.redeem token).toOption id)
    (answer : String) :
    (s.submit token answer).Gives (Tends id) (fun _ _ => True) past := by
  refine gives_ofExcept_bind fun value _ => ?_
  refine (tends_redeem s h).bind fun past a ha => ?_
  subst ha
  refine tends_fetchVisible.bind fun past m _ => ?_
  cases Service.surveyedCall m with
  | error reason => exact tends_failSubmission _ _
  | ok callId =>
    refine gives_ask_bind trivial fun r => ?_
    cases r with
    | error fault => exact tends_failSubmission _ _
    | ok _ =>
      refine gives_ask_bind rfl fun r => ?_
      cases r with
      | error fault => exact tends_failSubmission _ _
      | ok _ => exact gives_ask (tends_count _) fun _ => trivial

theorem tends_closeChat :
    (Service.closeChat id).Ensures (Tends id) (fun _ _ => True) past := by
  refine (ensures_answer rfl fun r => ?_).bind
  rcases r with fault | link | link
  · exact ensures_done.mpr trivial
  · exact ensures_done.mpr trivial
  · refine (ensures_answer trivial fun _ => ?_).bind
    exact ensures_done.mpr trivial

theorem tends_attachCall {reference : String} (h : Concerns (s.referent? reference) id)
    (callId : String) (bridged : Bool) :
    (s.attachCall reference callId bridged).Gives (Tends id) (fun _ _ => True)
      past := by
  refine (tends_resolve s h).bind fun past a ha => ?_
  subst ha
  refine tends_fetchVisible.bind fun past m _ => ?_
  cases m.callId with
  | some _ => exact gives_pure trivial
  | none =>
    refine gives_store_bind rfl fun _ => ?_
    exact (gives_lift tends_closeChat).bind fun _ _ _ => gives_pure trivial

theorem tends_takeHangup {hangup : Call.Hangup}
    (h : Concerns (hangup.data.meetingId.bind s.referent?) id) :
    (s.takeHangup hangup).Ensures (Tends id) (fun _ _ => True) past := by
  unfold Service.takeHangup
  cases hrelated : hangup.data.meetingId with
  | none => exact ensures_done.mpr trivial
  | some reference =>
    rw [hrelated, Option.bind_some] at h
    refine (Ensures.mono (tends_attachCall s h _ _).ensures fun past r _ => ?_).bind
    rcases r with fault | link | link
    · exact ensures_done.mpr trivial
    · exact ensures_done.mpr trivial
    · exact ensures_done.mpr trivial

theorem tends_takeEvent {payload : List UInt8} {entropy : Entropy}
    (h : Concerns ((Happening.event payload).addressee? s entropy) id) :
    (s.takeEvent payload).Ensures (Tends id) (fun _ _ => True) past := by
  have counted : ∀ past (outcome : Call.Outcome),
      (Program.answer (.count (.callEnded outcome)) >>= fun _ => pure outcome).Ensures
        (Tends id) (fun _ _ => True) past := by
    intro past outcome
    refine (ensures_answer (tends_count _) fun _ => ?_).bind
    exact ensures_done.mpr trivial
  unfold Service.takeEvent
  cases hread : Call.Hangup.ofPayload payload with
  | error _ => exact counted _ _
  | ok hangup =>
    have hrelated : Concerns (hangup.data.meetingId.bind s.referent?) id := by
      change Concerns ((Call.Hangup.ofPayload payload).toOption.bind _) id at h
      rw [hread] at h
      exact h
    exact ((tends_takeHangup s hrelated).mono fun past r _ => counted past r).bind

end

end Rendezvous
