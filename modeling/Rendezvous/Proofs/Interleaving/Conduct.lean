import Rendezvous.Proofs.Interleaving.System

namespace Rendezvous

def found (id : String) (m : Meeting) (now : Int64) : List Exchange :=
  [⟨.clock, now⟩, ⟨.store (.get id), .ok m⟩]

def accepted (m : Meeting) (callId answer : String) : Exchange :=
  ⟨.setVariables m.domainId callId (.single Service.answerVariable answer), .ok ()⟩

def noted (id answer : String) : Exchange := ⟨.store (.setSatisfaction id answer), .ok ()⟩

structure Admitted (s : Service) (token answer id : String) (m : Meeting) (now : Int64)
    (callId value : String) : Prop where
  redeemed : s.cipher.redeem token = .ok id
  tidy : Meeting.tidyAnswer answer = .ok value
  visible : m.isVisibleAt now
  surveyed : Service.surveyedCall m = .ok callId

namespace Activity

/-- When an activity may ask a question, given its exchanges so far. -/
def Warrants (s : Service) : Activity → List Exchange → Question → Prop
  | _, _, .clock | _, _, .count _ => True
  | create _, past, .octets n => n = Meeting.Identifier.size → past = []
  | create _, past, .store (.create m) =>
    ∃ (octets : Vector UInt8 Meeting.Identifier.size) (nonce : Vector UInt8 Token.nonceLength)
      (now : Int64) (d : Meeting.Draft) (url : String),
      past = [⟨.octets Token.nonceLength, some nonce⟩, ⟨.clock, now⟩,
        ⟨.octets Meeting.Identifier.size, some octets⟩] ∧
      m = .ofDraft d (Meeting.Identifier.ofOctets octets) url now s.defaultTtl
  | get _, _, .store (.get _) => True
  | delete _, _, .store (.delete _) => True
  | submit token _, past, .store (.get id) => past = [] ∧ s.cipher.redeem token = .ok id
  | submit token answer, past, .setVariables domainId callId vars =>
    ∃ id m now value, past = found id m now ∧ Admitted s token answer id m now callId value ∧
      domainId = m.domainId ∧ vars = .single Service.answerVariable value
  | submit token answer, past, .store (.setSatisfaction id value) =>
    ∃ m now callId, past = accepted m callId value :: found id m now ∧
      Admitted s token answer id m now callId value
  | event _, past, .store (.get _) => past = []
  | event _, past, .store (.setCall id _ _) =>
    ∃ m now, past = found id m now ∧ m.callId = none
  | event _, _, .store (.chatLink _) | event _, _, .closeChat _ => True
  | sweep, _, .store (.deleteExpired _) => True
  | _, _, _ => False

/-- What is known of the exchanges of an activity that has come to its end. -/
def Concludes (s : Service) : (a : Activity) → List Exchange → a.Result → Prop
  | submit token answer, past, r =>
    r = .ok () → ∃ id m now callId value last,
      past = last :: noted id value :: accepted m callId value :: found id m now ∧
      Admitted s token answer id m now callId value
  | _, _, _ => True

end Activity

open Rendezvous.Action Program

variable (s : Service) {past : List Exchange}

theorem warrants_clock (a : Activity) : a.Warrants s past .clock := by
  cases a <;> trivial

theorem warrants_count (a : Activity) (event : Metrics.Event) :
    a.Warrants s past (.count event) := by
  cases a <;> trivial

theorem gives_reject (a : Activity) {α : Type} {good : List Exchange → α → Prop}
    (fault : Token.Fault) : (Service.reject fault).Gives (a.Warrants s) good past := by
  cases fault with
  | malformed => exact gives_ask_bind (warrants_count s a _) fun _ => gives_throw
  | invalid => exact gives_ask_bind (warrants_count s a _) fun _ => gives_throw
  | noEntropy => exact gives_throw

theorem gives_redeem (a : Activity) (token : String) :
    (s.redeem token).Gives (a.Warrants s)
      (fun past' id => past' = past ∧ s.cipher.redeem token = .ok id) past := by
  unfold Service.redeem
  cases s.cipher.redeem token with
  | ok id => exact gives_pure ⟨rfl, rfl⟩
  | error fault => exact gives_reject s a fault

theorem gives_resolve (a : Activity) (reference : String) :
    (s.resolve reference).Gives (a.Warrants s) (fun past' _ => past' = past) past := by
  unfold Service.resolve
  cases s.cipher.redeem reference with
  | ok id => exact gives_pure rfl
  | error fault =>
    by_cases hid : Meeting.Identifier.isIdentifier reference
    · simp only [hid, if_true]
      exact gives_pure rfl
    · simp only [hid]
      exact gives_reject s a fault

theorem gives_fetchVisible (a : Activity) {id : String}
    (hw : a.Warrants s [] (.store (.get id))) :
    (Service.fetchVisible id).Gives (a.Warrants s)
      (fun past m => ∃ now, past = found id m now ∧ m.isVisibleAt now) [] := by
  refine gives_store_bind hw fun m => gives_ask_bind (warrants_clock s a) fun now => ?_
  by_cases hv : m.isVisibleAt now
  · simp only [hv, if_true]
    exact gives_pure ⟨now, rfl, hv⟩
  · simp only [hv]
    exact gives_throw

theorem gives_drawIdentifier (draft : Meeting.Draft) :
    Service.drawIdentifier.Gives (Activity.Warrants s (.create draft))
      (fun past id => ∃ octets, past = [⟨.octets Meeting.Identifier.size, some octets⟩] ∧
        id = Meeting.Identifier.ofOctets octets) [] := by
  refine gives_ask_bind (fun _ => rfl) fun o => ?_
  cases o with
  | none => exact gives_throw
  | some octets => exact gives_pure ⟨octets, rfl, rfl⟩

theorem gives_issue (draft : Meeting.Draft) (id : String) :
    (s.issue id).Gives (Activity.Warrants s (.create draft))
      (fun past' _ => ∃ nonce, past' = ⟨.octets Token.nonceLength, some nonce⟩ :: past) past := by
  have hne : Token.nonceLength ≠ Meeting.Identifier.size := by decide
  refine gives_ask_bind (fun h => absurd h hne) fun o => ?_
  cases o with
  | none => exact gives_throw
  | some nonce => exact gives_pure ⟨_, rfl⟩

theorem gives_create (draft : Meeting.Draft) :
    (s.create draft).Gives (Activity.Warrants s (.create draft)) (fun _ _ => True) [] := by
  refine gives_ofExcept_bind fun d _ => ?_
  refine (gives_drawIdentifier s draft).bind fun past id ⟨octets, hpast, hid⟩ => ?_
  subst hid
  refine gives_ask_bind (warrants_clock s _) fun now => ?_
  refine (gives_issue s draft _).bind fun past' token ⟨nonce, hpast'⟩ => ?_
  dsimp only
  refine gives_store_bind ⟨octets, nonce, now, d, d.basePath ++ "/" ++ token, ?_, rfl⟩ fun _ => ?_
  · rw [hpast', hpast]
  · exact gives_ask_bind (warrants_count s _ _) fun _ => gives_pure trivial

theorem gives_get (token : String) :
    (s.get token).Gives (Activity.Warrants s (.get token)) (fun _ _ => True) [] := by
  refine (gives_redeem s _ token).bind fun past id ⟨hpast, _⟩ => ?_
  subst hpast
  refine gives_tryCatch ?_ fun past fault => ?_
  · exact (gives_fetchVisible s (.get token) trivial).bind fun _ _ _ => gives_pure trivial
  · cases fault with
    | notFound => exact gives_pure trivial
    | expired => exact gives_pure trivial
    | _ => exact gives_throw

theorem gives_delete (token : String) :
    (s.delete token).Gives (Activity.Warrants s (.delete token)) (fun _ _ => True) [] := by
  refine (gives_redeem s _ token).bind fun past id _ => ?_
  have hw : Activity.Warrants s (.delete token) past (.store (.delete id)) := trivial
  exact gives_store hw fun _ => trivial

theorem gives_failSubmission (a : Activity) {good : List Exchange → Unit → Prop}
    (status : Metrics.Submission) (fault : Fault) :
    (Service.failSubmission status fault).Gives (a.Warrants s) good past :=
  gives_ask_bind (warrants_count s a _) fun _ => gives_throw

theorem gives_submit (token answer : String) :
    (s.submit token answer).Gives (Activity.Warrants s (.submit token answer))
      (fun past _ => ∃ id m now callId value last,
        past = last :: noted id value :: accepted m callId value :: found id m now ∧
        Admitted s token answer id m now callId value) [] := by
  refine gives_ofExcept_bind fun value htidy => ?_
  refine (gives_redeem s _ token).bind fun past id ⟨hpast, hid⟩ => ?_
  subst hpast
  refine (gives_fetchVisible s (.submit token answer) ⟨rfl, hid⟩).bind
    fun past m ⟨now, hpast, hv⟩ => ?_
  subst hpast
  cases hc : Service.surveyedCall m with
  | error reason => exact gives_failSubmission s _ _ _
  | ok callId =>
    have admitted : Admitted s token answer id m now callId value := ⟨hid, htidy, hv, hc⟩
    refine gives_ask_bind ⟨id, m, now, value, rfl, admitted, rfl, rfl⟩ fun r => ?_
    cases r with
    | error fault => exact gives_failSubmission s _ _ _
    | ok _ =>
      refine gives_ask_bind ⟨m, now, callId, rfl, admitted⟩ fun r => ?_
      cases r with
      | error fault => exact gives_failSubmission s _ _ _
      | ok _ =>
        exact gives_ask (warrants_count s _ _) fun _ =>
          ⟨id, m, now, callId, value, _, rfl, admitted⟩

theorem ensures_closeChat (payload : List UInt8) (id : String) :
    (Service.closeChat id).Ensures (Activity.Warrants s (.event payload)) (fun _ _ => True)
      past := by
  refine (ensures_answer trivial fun r => ?_).bind
  rcases r with fault | link | link
  · exact ensures_done.mpr trivial
  · exact ensures_done.mpr trivial
  · refine (ensures_answer trivial fun _ => ?_).bind
    exact ensures_done.mpr trivial

theorem gives_attachCall (payload : List UInt8) (reference callId : String) (bridged : Bool) :
    (s.attachCall reference callId bridged).Gives (Activity.Warrants s (.event payload))
      (fun _ _ => True) [] := by
  refine (gives_resolve s _ reference).bind fun past id hpast => ?_
  subst hpast
  refine (gives_fetchVisible s (.event payload) rfl).bind fun past m ⟨now, hpast, _⟩ => ?_
  subst hpast
  cases hc : m.callId with
  | some _ => exact gives_pure trivial
  | none =>
    refine gives_store_bind ⟨m, now, rfl, hc⟩ fun _ => ?_
    refine (gives_lift (ensures_closeChat s payload id)).bind fun _ _ _ => ?_
    exact gives_pure trivial

theorem ensures_takeHangup (payload : List UInt8) (hangup : Call.Hangup) :
    (s.takeHangup hangup).Ensures (Activity.Warrants s (.event payload)) (fun _ _ => True) [] := by
  unfold Service.takeHangup
  cases hangup.data.meetingId with
  | none => exact ensures_done.mpr trivial
  | some reference =>
    refine (Ensures.mono (gives_attachCall s payload reference _ _).ensures fun past r _ => ?_).bind
    rcases r with fault | link | link
    · exact ensures_done.mpr trivial
    · exact ensures_done.mpr trivial
    · exact ensures_done.mpr trivial

theorem ensures_takeEvent (payload : List UInt8) :
    (s.takeEvent payload).Ensures (Activity.Warrants s (.event payload)) (fun _ _ => True) [] := by
  have counted : ∀ past (outcome : Call.Outcome),
      (Program.answer (.count (.callEnded outcome)) >>= fun _ => pure outcome).Ensures
        (Activity.Warrants s (.event payload)) (fun _ _ => True) past := by
    intro past outcome
    refine (ensures_answer trivial fun _ => ?_).bind
    exact ensures_done.mpr trivial
  unfold Service.takeEvent
  cases Call.Hangup.ofPayload payload with
  | error _ => exact counted _ _
  | ok hangup =>
    exact ((ensures_takeHangup s payload hangup).mono fun past r _ => counted past r).bind

theorem ensures_sweeps :
    (Service.Sweeper.sweeps 1).Ensures (Activity.Warrants s .sweep) (fun _ _ => True) [] := by
  have swept : ∀ past now,
      (Service.sweep now).Ensures (Activity.Warrants s .sweep) (fun _ _ => True) past := by
    intro past now
    refine (ensures_answer trivial fun r => ?_).bind
    cases r with
    | error _ => exact ensures_done.mpr trivial
    | ok count =>
      refine (ensures_answer trivial fun _ => ?_).bind
      exact ensures_done.mpr trivial
  refine (ensures_answer trivial fun now => ?_).bind
  refine ((swept _ now).mono fun _ _ _ => ?_).bind
  exact ensures_done.mpr trivial

/-- Each activity asks only what it may ask. -/
theorem Activity.ensures_program (a : Activity) :
    (a.program s).Ensures (a.Warrants s) (a.Concludes s) [] := by
  cases a with
  | create draft => exact (gives_create s draft).ensures.mono fun _ _ _ => trivial
  | get token => exact (gives_get s token).ensures.mono fun _ _ _ => trivial
  | delete token => exact (gives_delete s token).ensures.mono fun _ _ _ => trivial
  | submit token answer => exact (gives_submit s token answer).ensures.mono fun _ _ h => h ()
  | event payload => exact ensures_takeEvent s payload
  | sweep => exact ensures_sweeps s

end Rendezvous
