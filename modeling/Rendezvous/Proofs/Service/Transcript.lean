import Rendezvous.Proofs.Interleaving.Conduct
import Rendezvous.Proofs.Service.Results

namespace Rendezvous

open Program

namespace Action

variable {α β : Type} {past : List Exchange}

/-- That `post` holds of all exchanges of an action and of its result, whatever the answers are. -/
def Ends (post : List Exchange → Except Fault α → Prop) (a : Action α) (past : List Exchange) :
    Prop :=
  a.run.Ensures (fun _ _ => True) post past

variable {a : Action α} {f : α → Action β} {post : List Exchange → Except Fault β → Prop}

theorem Ends.bind {middle : List Exchange → Except Fault α → Prop} (h : a.Ends middle past)
    (ok : ∀ past v, middle past (.ok v) → (f v).Ends post past)
    (error : ∀ past fault, middle past (.error fault) → post past (.error fault)) :
    (a >>= f).Ends post past := by
  rw [Ends, ExceptT.run_bind]
  refine Ensures.bind (Ensures.mono h fun past r hr => ?_)
  cases r with
  | ok v => exact ok past v hr
  | error fault => exact ensures_done.mpr (error past fault hr)

theorem ends_pure {v : β} (h : post past (.ok v)) : (pure v : Action β).Ends post past :=
  ensures_done.mpr h

theorem ends_throw {fault : Fault} (h : post past (.error fault)) :
    (throw fault : Action β).Ends post past :=
  ensures_done.mpr h

theorem ends_ask {q : Question} {post : List Exchange → Except Fault q.Answer → Prop}
    (h : ∀ answer, post (⟨q, answer⟩ :: past) (.ok answer)) : (ask q).Ends post past :=
  ensures_ask.mpr ⟨trivial, fun answer => ensures_done.mpr (h answer)⟩

theorem ends_ask_bind {q : Question} {f : q.Answer → Action β}
    (h : ∀ answer, (f answer).Ends post (⟨q, answer⟩ :: past)) : (ask q >>= f).Ends post past := by
  have hq : (ask q).Ends (fun past' r => ∃ answer, r = .ok answer ∧ past' = ⟨q, answer⟩ :: past)
      past := ends_ask fun answer => ⟨answer, rfl, rfl⟩
  refine hq.bind ?_ ?_
  · rintro _ v ⟨_, ⟨⟩, rfl⟩
    exact h v
  · rintro _ _ ⟨_, ⟨⟩, _⟩

theorem ends_store {op : Store.Operation} {post : List Exchange → op.Answer → Prop}
    (h : ∀ answer, post (⟨.store op, answer⟩ :: past) answer) : (store op).Ends post past :=
  ensures_answer trivial h

theorem ends_store_bind {op : Store.Operation} {f : op.Value → Action β}
    (ok : ∀ v, (f v).Ends post (⟨.store op, .ok v⟩ :: past))
    (error : ∀ fault, post (⟨.store op, .error fault⟩ :: past) (.error fault)) :
    (store op >>= f).Ends post past := by
  have hop : (store op).Ends (fun past' r => past' = ⟨.store op, r⟩ :: past) past :=
    ends_store fun _ => rfl
  refine hop.bind ?_ ?_
  · rintro _ v rfl
    exact ok v
  · rintro _ fault rfl
    exact error fault

theorem ends_lift {p : Program α} {post : List Exchange → Except Fault α → Prop}
    (h : p.Ensures (fun _ _ => True) (fun past v => post past (.ok v)) past) :
    Ends post (ExceptT.lift p) past := by
  rw [Ends, ExceptT.run_lift]
  exact Ensures.bind (h.mono fun _ _ hv => ensures_done.mpr hv)

theorem ends_tryCatch {a : Action β} {f : Fault → Action β}
    {middle : List Exchange → Except Fault β → Prop} (h : a.Ends middle past)
    (ok : ∀ past v, middle past (.ok v) → post past (.ok v))
    (error : ∀ past fault, middle past (.error fault) → (f fault).Ends post past) :
    (tryCatch a f).Ends post past := by
  refine Ensures.bind (Ensures.mono h fun past r hr => ?_)
  cases r with
  | ok v => exact ensures_done.mpr (ok past v hr)
  | error fault => exact error past fault hr

end Action

def Exchange.counts (event : Metrics.Event) : Exchange := ⟨.count event, ()⟩

def Exchange.rejects (reason : Metrics.Rejection) : Exchange := counts (.tokenRejected reason)

def Exchange.pushes (m : Meeting) (callId value : String) (r : Except Fault Unit) : Exchange :=
  ⟨.setVariables m.domainId callId (.single Service.answerVariable value), r⟩

open Rendezvous.Action Exchange

theorem Action.ends_count {event : Metrics.Event} {past : List Exchange}
    {post : List Exchange → Except Fault Unit → Prop} (h : post (counts event :: past) (.ok ())) :
    (count event).Ends post past :=
  ends_ask (q := .count event) fun _ => h

namespace Service

variable (s : Service) {past : List Exchange}

inductive Redeeming (means : String → Prop) (past : List Exchange) :
    List Exchange → Except Fault String → Prop where
  | known {id : String} (h : means id) : Redeeming means past past (.ok id)
  | rejected (reason : Metrics.Rejection) (unknown : ∀ id, ¬means id) :
      Redeeming means past (rejects reason :: past) (.error .invalidToken)

theorem ends_reject {token : String} {fault : Token.Fault} {means : String → Prop}
    (h : s.cipher.redeem token = .error fault) (unknown : ∀ id, ¬means id) :
    (reject fault : Action String).Ends (Redeeming means past) past := by
  have kind := s.cipher.kind_redeem token
  rw [h] at kind
  cases kind with
  | noEncoding | short | noIdentifier =>
    exact ends_ask_bind fun _ => ends_throw (.rejected .malformed unknown)
  | forged => exact ends_ask_bind fun _ => ends_throw (.rejected .invalid unknown)

theorem ends_redeem (token : String) :
    (s.redeem token).Ends (Redeeming (s.cipher.redeem token = .ok ·) past) past := by
  unfold redeem
  cases hr : s.cipher.redeem token with
  | ok id => exact ends_pure (.known rfl)
  | error fault => exact s.ends_reject hr (by simp)

theorem ends_resolve (reference : String) :
    (s.resolve reference).Ends (Redeeming (s.Resolves reference) past) past := by
  unfold resolve
  cases hr : s.cipher.redeem reference with
  | ok id => exact ends_pure (.known (.inl hr))
  | error fault =>
    by_cases hid : Meeting.Identifier.isIdentifier reference
    · simp only [hid, if_true]
      exact ends_pure (.known (.inr ⟨⟨fault, hr⟩, hid, rfl⟩))
    · simp only [hid]
      refine s.ends_reject hr ?_
      rintro id (h | ⟨-, h, -⟩)
      · cases hr.symm.trans h
      · exact hid h

inductive Fetching (id : String) : List Exchange → Except Fault Meeting → Prop where
  | missed (fault : Fault) : Fetching id [⟨.store (.get id), .error fault⟩] (.error fault)
  | expired (m : Meeting) (now : Int64) : Fetching id (found id m now) (.error .expired)
  | seen (m : Meeting) (now : Int64) : Fetching id (found id m now) (.ok m)

theorem ends_fetchVisible (id : String) : (fetchVisible id).Ends (Fetching id) [] := by
  refine ends_store_bind (fun m => ends_ask_bind fun now => ?_) .missed
  by_cases hv : m.isVisibleAt now
  · simp only [hv, if_true]
    exact ends_pure (.seen m now)
  · simp only [hv]
    exact ends_throw (.expired m now)

inductive Getting : List Exchange → Except Fault (Option Meeting.View) → Prop where
  | rejected (reason : Metrics.Rejection) : Getting [rejects reason] (.error .invalidToken)
  | gone {id : String} {past : List Exchange} {fault : Fault}
      (read : Fetching id past (.error fault)) : Getting past (.ok none)
  | failed {id : String} {past : List Exchange} {fault : Fault}
      (read : Fetching id past (.error fault)) : Getting past (.error fault)
  | seen {id : String} {past : List Exchange} {m : Meeting} (read : Fetching id past (.ok m))
      (view : Meeting.View) : Getting past (.ok (some view))

theorem ends_get (token : String) : (s.get token).Ends Getting [] := by
  refine (s.ends_redeem token).bind ?_ ?_
  · rintro _ id ⟨⟩
    have hread : Ends (fun past r => ∃ r', Fetching id past r' ∧
        r = r'.map fun m => some (m.view token))
        (do return some ((← fetchVisible id).view token)) [] :=
      (ends_fetchVisible id).bind (fun past m read => ends_pure ⟨.ok m, read, rfl⟩)
        fun past fault read => ⟨.error fault, read, rfl⟩
    refine ends_tryCatch hread ?_ ?_
    · rintro past _ ⟨fault | m, read, ⟨⟩⟩
      exact .seen read _
    · rintro past fault ⟨fault | m, read, hr⟩
      · cases hr
        cases fault with
        | notFound => exact ends_pure (.gone read)
        | expired => exact ends_pure (.gone read)
        | _ => exact ends_throw (.failed read)
      · cases hr
  · rintro _ _ ⟨⟩
    exact .rejected _

inductive Deleting : List Exchange → Except Fault Unit → Prop where
  | rejected (reason : Metrics.Rejection) : Deleting [rejects reason] (.error .invalidToken)
  | asked (id : String) (r : Except Fault Unit) : Deleting [⟨.store (.delete id), r⟩] r

theorem ends_delete (token : String) : (s.delete token).Ends Deleting [] := by
  refine (s.ends_redeem token).bind ?_ ?_
  · rintro _ id ⟨⟩
    have hasked : ∀ r, Deleting [⟨.store (.delete id), r⟩] r := .asked id
    exact ends_store hasked
  · rintro _ _ ⟨⟩
    exact .rejected _

/-- How the open chat of a meeting is closed, after what was exchanged before. -/
inductive Closing (id : String) (past : List Exchange) : List Exchange → Prop where
  | unlinked (r : Except Fault (Option ChatLink)) :
      Closing id past (⟨.store (.chatLink id), r⟩ :: past)
  | closed (link : ChatLink) (r : Except Fault Unit) :
      Closing id past (⟨.closeChat link, r⟩ :: ⟨.store (.chatLink id), .ok (some link)⟩ :: past)

theorem ensures_closing (id : String) :
    (closeChat id).Ensures (fun _ _ => True) (fun past' _ => Closing id past past') past := by
  refine (ensures_answer trivial fun r => ?_).bind
  rcases r with fault | _ | link
  · exact ensures_done.mpr (.unlinked _)
  · exact ensures_done.mpr (.unlinked _)
  · refine (ensures_answer trivial fun r => ?_).bind
    exact ensures_done.mpr (.closed link r)

inductive Attaching (reference callId : String) (bridged : Bool) :
    List Exchange → Except Fault CallLink → Prop where
  | rejected (reason : Metrics.Rejection) (unknown : ∀ id, ¬s.Resolves reference id) :
      Attaching reference callId bridged [rejects reason] (.error .invalidToken)
  | missed {id : String} {past : List Exchange} {fault : Fault}
      (read : Fetching id past (.error fault)) :
      Attaching reference callId bridged past (.error fault)
  | alreadyLinked {id : String} {past : List Exchange} {m : Meeting}
      (read : Fetching id past (.ok m)) :
      Attaching reference callId bridged past (.ok (.alreadyLinked id))
  | unnoted {id : String} {past : List Exchange} {m : Meeting} (read : Fetching id past (.ok m))
      (fault : Fault) : Attaching reference callId bridged
        (⟨.store (.setCall id callId bridged), .error fault⟩ :: past) (.error fault)
  | linked {id : String} {past past' : List Exchange} {m : Meeting}
      (read : Fetching id past (.ok m))
      (closing : Closing id (⟨.store (.setCall id callId bridged), .ok ()⟩ :: past) past') :
      Attaching reference callId bridged past' (.ok (.linked id))

theorem ends_attachCall (reference callId : String) (bridged : Bool) :
    (s.attachCall reference callId bridged).Ends (s.Attaching reference callId bridged) [] := by
  refine (s.ends_resolve reference).bind ?_ ?_
  · rintro _ id ⟨⟩
    refine (ends_fetchVisible id).bind ?_ fun past fault read => .missed read
    intro past m read
    cases hc : m.callId with
    | some _ => exact ends_pure (.alreadyLinked read)
    | none =>
      refine ends_store_bind (fun _ => ?_) (.unnoted read)
      have hclose : Ends (fun past' r => r = .ok () ∧
          Closing id (⟨.store (.setCall id callId bridged), .ok ()⟩ :: past) past')
          (ExceptT.lift (closeChat id)) (⟨.store (.setCall id callId bridged), .ok ()⟩ :: past) :=
        ends_lift ((ensures_closing id).mono fun _ _ closing => ⟨rfl, closing⟩)
      refine hclose.bind ?_ ?_
      · rintro past' _ ⟨-, closing⟩
        exact ends_pure (.linked read closing)
      · rintro past' fault ⟨⟨⟩, _⟩
  · rintro _ _ (_ | ⟨_, unknown⟩)
    exact .rejected _ unknown

inductive Submitting : List Exchange → Except Fault Unit → Prop where
  | untidy (reason : String) : Submitting [] (.error (.badRequest reason))
  | rejected (reason : Metrics.Rejection) : Submitting [rejects reason] (.error .invalidToken)
  | missed {id : String} {past : List Exchange} {fault : Fault}
      (read : Fetching id past (.error fault)) : Submitting past (.error fault)
  | notAllowed {id : String} {past : List Exchange} {m : Meeting}
      (read : Fetching id past (.ok m)) (reason : String) :
      Submitting (counts (.surveyAnswered .notAllowed) :: past) (.error (.notAllowed reason))
  | refused {id : String} {past : List Exchange} {m : Meeting} (read : Fetching id past (.ok m))
      (callId value : String) (fault : Fault) :
      Submitting (counts (.surveyAnswered .error) :: pushes m callId value (.error fault) :: past)
        (.error fault)
  | unnoted {id : String} {past : List Exchange} {m : Meeting} (read : Fetching id past (.ok m))
      (callId value : String) (fault : Fault) :
      Submitting (counts (.surveyAnswered .error) ::
        ⟨.store (.setSatisfaction id value), .error fault⟩ ::
        pushes m callId value (.ok ()) :: past) (.error fault)
  | noted {id : String} {past : List Exchange} {m : Meeting} (read : Fetching id past (.ok m))
      (callId value : String) :
      Submitting (counts (.surveyAnswered .success) :: Rendezvous.noted id value ::
        pushes m callId value (.ok ()) :: past) (.ok ())

theorem ends_submit (token answer : String) : (s.submit token answer).Ends Submitting [] := by
  unfold submit
  cases htidy : Meeting.tidyAnswer answer with
  | error fault =>
    obtain ⟨reason, rfl⟩ := Meeting.of_tidyAnswer_error htidy
    exact ends_throw (.untidy reason)
  | ok value =>
    rw [show Action.ofExcept (.ok value : Except Fault String) = pure value from rfl, pure_bind]
    refine (s.ends_redeem token).bind ?_ ?_
    · rintro _ id ⟨⟩
      refine (ends_fetchVisible id).bind ?_ fun past fault read => .missed read
      intro past m read
      cases surveyedCall m with
      | error reason =>
        exact ends_ask_bind fun _ => ends_throw (.notAllowed read reason)
      | ok callId =>
        refine ends_ask_bind fun r => ?_
        rcases r with fault | _
        · exact ends_ask_bind fun _ => ends_throw (.refused read callId value fault)
        · refine ends_ask_bind fun r => ?_
          rcases r with fault | _
          · exact ends_ask_bind fun _ => ends_throw (.unnoted read callId value fault)
          · exact ends_count (.noted read callId value)
    · rintro _ _ ⟨⟩
      exact .rejected _

def drawn (octets : Vector UInt8 Meeting.Identifier.size) (now : Int64) (nonce : Token.Nonce) :
    List Exchange :=
  [⟨.octets Token.nonceLength, some nonce⟩, ⟨.clock, now⟩,
    ⟨.octets Meeting.Identifier.size, some octets⟩]

inductive Creating : List Exchange → Except Fault Meeting.Ticket → Prop where
  | untidy (fault : Fault) : Creating [] (.error fault)
  | undrawn (fault : Fault) : Creating [⟨.octets Meeting.Identifier.size, none⟩] (.error fault)
  | unissued (octets : Vector UInt8 Meeting.Identifier.size) (now : Int64) (fault : Fault) :
      Creating [⟨.octets Token.nonceLength, none⟩, ⟨.clock, now⟩,
        ⟨.octets Meeting.Identifier.size, some octets⟩] (.error fault)
  | refused (octets : Vector UInt8 Meeting.Identifier.size) (now : Int64) (nonce : Token.Nonce)
      (m : Meeting) (fault : Fault) :
      Creating (⟨.store (.create m), .error fault⟩ :: drawn octets now nonce) (.error fault)
  | stored (octets : Vector UInt8 Meeting.Identifier.size) (now : Int64) (nonce : Token.Nonce)
      (m : Meeting) (ticket : Meeting.Ticket) :
      Creating (counts .meetingCreated :: Exchange.created m :: drawn octets now nonce) (.ok ticket)

theorem ends_create (draft : Meeting.Draft) : (s.create draft).Ends Creating [] := by
  unfold create
  cases draft.tidy with
  | error fault => exact ends_throw (.untidy fault)
  | ok tidy =>
    rw [show Action.ofExcept (.ok tidy : Except Fault Meeting.Draft) = pure tidy from rfl,
      pure_bind]
    unfold drawIdentifier issue
    rw [bind_assoc]
    refine ends_ask_bind fun o => ?_
    rcases o with _ | octets
    · exact ends_throw (.undrawn _)
    refine ends_ask_bind fun now => ?_
    rw [bind_assoc]
    refine ends_ask_bind fun o => ?_
    rcases o with _ | nonce
    · exact ends_throw (.unissued octets now _)
    refine ends_store_bind (fun _ => ?_) (.refused octets now nonce _)
    exact ends_ask_bind fun _ => ends_pure (.stored octets now nonce _ _)

inductive Sweeping (cutoff : Int64) : List Exchange → Nat → Prop where
  | failed (fault : Fault) :
      Sweeping cutoff [⟨.store (.deleteExpired cutoff), .error fault⟩] 0
  | swept (count : Nat) :
      Sweeping cutoff [counts (.swept count), ⟨.store (.deleteExpired cutoff), .ok count⟩] count

theorem ensures_sweep (cutoff : Int64) :
    (sweep cutoff).Ensures (fun _ _ => True) (Sweeping cutoff) [] := by
  refine (ensures_answer trivial fun r => ?_).bind
  rcases r with fault | count
  · exact ensures_done.mpr (.failed fault)
  · refine (ensures_answer trivial fun _ => ?_).bind
    exact ensures_done.mpr (.swept count)

end Service

namespace Deployment

variable {α β : Type}

/-- The exchanges of a program that runs in a deployment, after earlier ones. -/
def transcript (d : Deployment) (past : List Exchange) : Program α → List Exchange
  | .done _ => past
  | .ask q next => (d.handle q).2.transcript (⟨q, (d.handle q).1⟩ :: past) (next (d.handle q).1)

theorem transcript_bind (d : Deployment) (past : List Exchange) (p : Program α)
    (f : α → Program β) : d.transcript past (p >>= f) =
      (d.run p).2.transcript (d.transcript past p) (f (d.run p).1) := by
  induction p generalizing d past with
  | done a => rfl
  | ask q next ih => exact ih _ _ _

/-- What holds at the end of a program whatever the answers are, holds at the end of a run. -/
theorem of_ensures {warrant : List Exchange → Question → Prop} {post : List Exchange → α → Prop}
    {p : Program α} {past : List Exchange} (h : p.Ensures warrant post past) (d : Deployment) :
    post (d.transcript past p) (d.run p).1 := by
  induction p generalizing d past with
  | done a => exact ensures_done.mp h
  | ask q next ih => exact ih _ ((ensures_ask.mp h).2 _) _

end Deployment

end Rendezvous
