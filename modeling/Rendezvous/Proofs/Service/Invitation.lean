import Rendezvous.Proofs.Http.Absence
import Rendezvous.Proofs.Interleaving.Endurance

namespace Rendezvous

open Store Service

namespace Deployment

variable {d d' : Deployment} {id : String}

/-- That no meeting is held under an identifier whose survey is not answered. -/
def Answered (d : Deployment) (id : String) : Prop :=
  ∀ m ∈ d.memory.meetings, m.id = id → m.satisfaction.isSome

theorem handle_create_of_shows {m n : Meeting} (shown : Shows d n.id m) :
    (d.handle (.store (.create n))).1 ≠ .ok () := by
  change (d.perform (.create n)).1 ≠ .ok ()
  rcases memory_perform d (.create n) with ⟨-, fault, hfault⟩ | ⟨hanswer, -⟩
  · rw [hfault]
    nofun
  · have held : (d.memory.find? n.id).any (·.isVisibleAt d.storeClock.now) := by
      rw [shown.held]
      exact shown.fresh
    rw [hanswer, Memory.perform, Memory.create_of_held held]
    nofun

theorem Answered.handle (h : d.Answered id) {m : Meeting} (shown : Shows d id m) (q : Question) :
    (d.handle q).2.Answered id := by
  intro n hn hid
  rcases mem_handle hn with ⟨n', hn', rfl⟩ | hcreated
  · rw [Exchange.id_effect] at hid
    exact Exchange.isSome_satisfaction_effect _ (h n' hn' hid)
  · -- a meeting without an answer would have to be created in the place of the one that is shown
    obtain rfl : q = .store (.create n) := congrArg Exchange.question hcreated
    subst hid
    exact absurd (eq_of_heq (Exchange.mk.inj hcreated).2) (handle_create_of_shows shown)

theorem Leads.answered {xs : List Inquiry} (h : d.Leads xs d') (answered : d.Answered id)
    (shown : ∀ x ∈ xs, ∃ m, Shows x.before id m) : d'.Answered id := by
  induction h with
  | start => exact answered
  | answer _ q ih =>
    obtain ⟨⟨m, hm⟩, shown⟩ := List.forall_mem_cons.mp shown
    exact (ih shown).handle hm q
  | drift _ d' kept _ ih =>
    rw [Answered, kept]
    exact ih shown

end Deployment

namespace Service

variable {s : Service} {d : Deployment} {token answer id : String}

theorem isOk_surveyedCall (m : Meeting) : (surveyedCall m).isOk = m.allowsSatisfaction := by
  unfold surveyedCall Meeting.allowsSatisfaction
  cases m.callId with
  | none => cases m.satisfaction <;> simp [Except.isOk, Except.toBool]
  | some callId =>
    cases m.satisfaction with
    | none => cases m.bridged <;> rfl
    | some value => simp [Except.isOk, Except.toBool]

/-- Nobody answers the survey of a shown meeting that is answered. -/
theorem run_submit_of_answered (healthy : d.Healthy) (answered : d.Answered id)
    (known : s.cipher.redeem token = .ok id) {m : Meeting} (shown : Shows d id m) {value : String}
    (tidy : Meeting.tidyAnswer answer = .ok value) :
    (d.run (s.submit token answer).run).1 =
      .error (.notAllowed "satisfaction already recorded") := by
  obtain ⟨held, hid⟩ := Memory.find?_mem shown.held
  obtain ⟨given, hgiven⟩ := Option.isSome_iff_exists.mp (answered m held hid)
  have closed : surveyedCall m = .error "satisfaction already recorded" := by
    unfold surveyedCall
    rw [hgiven]
  have hresult := s.submitted healthy token answer
  generalize d.run (s.submit token answer).run = z at hresult
  cases hresult with
  | untidy refused => cases tidy.symm.trans refused
  | rejected tally unknown => exact absurd known (unknown id)
  | missed known' read =>
    cases known.symm.trans known'
    exact absurd read shown.not_missed
  | notAllowed tally known' shown' closed' =>
    cases known.symm.trans known'
    cases shown.unique shown'
    cases closed.symm.trans closed'
    rfl
  | refused tally tidy' known' shown' opened pushed =>
    cases known.symm.trans known'
    cases shown.unique shown'
    cases closed.symm.trans opened
  | noted tally tidy' known' shown' opened pushed =>
    cases known.symm.trans known'
    cases shown.unique shown'
    cases closed.symm.trans opened

inductive Concurs : Except Fault Unit → Except Fault (Option Meeting.View) → Prop where
  | rejected : Concurs (.error .invalidToken) (.error .invalidToken)
  | absent {fault : Fault} (told : fault = .notFound ∨ fault = .expired) :
      Concurs (.error fault) (.ok none)
  | refused {reason : String} {v : Meeting.View} (uninvited : v.allowSatisfaction = false) :
      Concurs (.error (.notAllowed reason)) (.ok (some v))
  | taken {v : Meeting.View} (invited : v.allowSatisfaction = true) :
      Concurs (.ok ()) (.ok (some v))

theorem concurs (healthy : d.Healthy) (accepting : ∀ push, (d.engine.call push).1 = .ok ())
    {value : String} (tidy : Meeting.tidyAnswer answer = .ok value) :
    Concurs (d.run (s.submit token answer).run).1 (d.run (s.get token).run).1 := by
  have hresult := s.submitted healthy token answer
  generalize d.run (s.submit token answer).run = z at hresult
  cases hresult with
  | untidy refused => cases tidy.symm.trans refused
  | rejected tally unknown =>
    have hgot := s.got healthy token
    generalize d.run (s.get token).run = z at hgot
    cases hgot with
    | rejected => exact .rejected
    | gone known => exact absurd known (unknown _)
    | seen tally known => exact absurd known (unknown _)
  | missed known read =>
    rw [(run_get_eq_none_iff healthy known).mpr read.hides]
    exact .absent read.fault
  | @notAllowed _ _ m tally known shown closed =>
    rw [run_get_of_shows healthy known shown]
    refine .refused ?_
    change m.allowsSatisfaction = false
    rw [← isOk_surveyedCall, closed]
    rfl
  | refused tally tidy known shown opened pushed =>
    cases (congrArg Prod.fst pushed).symm.trans (accepting _)
  | noted tally tidy known shown opened pushed =>
    rw [run_get_of_shows healthy known shown]
    exact .taken (allowsSatisfaction_of_surveyedCall opened)

section

variable {r : Except Fault Unit} {look : Except Fault (Option Meeting.View)} (h : Concurs r look)
include h

theorem Concurs.eq_ok_iff : r = .ok () ↔ ∃ v, look = .ok (some v) ∧ v.allowSatisfaction = true := by
  cases h <;> simp_all

theorem Concurs.eq_notAllowed_iff : (∃ reason, r = .error (.notAllowed reason)) ↔
    ∃ v, look = .ok (some v) ∧ v.allowSatisfaction = false := by
  cases h with
  | absent told => rcases told with rfl | rfl <;> simp
  | _ => simp_all

theorem Concurs.eq_absent_iff : r = .error .notFound ∨ r = .error .expired ↔ look = .ok none := by
  cases h with
  | absent told => simpa using told
  | _ => simp

theorem Concurs.eq_invalidToken_iff :
    r = .error .invalidToken ↔ look = .error .invalidToken := by
  cases h with
  | absent told => rcases told with rfl | rfl <;> simp
  | _ => simp

end

structure AnswerTaken (s : Service) (d d' : Deployment) (token id value : String) : Prop where
  before : ∃ v, (d.run (s.get token).run).1 = .ok (some v) ∧
    (d'.run (s.get token).run).1 =
      .ok (some { v with satisfaction := some value, allowSatisfaction := false })
  /-- whatever is done by whomever, and however the clocks go, while the meeting is shown -/
  after : ∀ xs d'', d'.Leads xs d'' → d''.Healthy → (∀ x ∈ xs, ∃ m, Shows x.before id m) →
    (∃ m, Shows d'' id m) → ∀ token' answer' value', s.cipher.redeem token' = .ok id →
      Meeting.tidyAnswer answer' = .ok value' →
      (d''.run (s.submit token' answer').run).1 =
        .error (.notAllowed "satisfaction already recorded")

theorem Submitted.taken (healthy : d.Healthy) {value : String}
    (tidy : Meeting.tidyAnswer answer = .ok value) {d' : Deployment}
    (h : s.Submitted d token answer (.ok (), d')) :
    ∃ id, s.cipher.redeem token = .ok id ∧ AnswerTaken s d d' token id value := by
  cases h with
  | @noted id callId value' m engine tally tidy' known shown opened pushed =>
    cases tidy.symm.trans tidy'
    obtain ⟨-, rfl⟩ := Memory.find?_mem shown.held
    refine ⟨m.id, known, ⟨m.view token, run_get_of_shows healthy known shown, ?_⟩, ?_⟩
    · have shown' : Shows { d with
          memory := d.memory.promote { m with satisfaction := some value }, engine, tally } m.id
          { m with satisfaction := some value } :=
        ⟨by rw [Memory.find?_promote, if_pos rfl], shown.fresh, shown.visible⟩
      have healthy' : Deployment.Healthy { d with
          memory := d.memory.promote { m with satisfaction := some value }, engine, tally } :=
        healthy
      rw [run_get_of_shows healthy' known shown']
      simp [Meeting.view, Meeting.allowsSatisfaction]
    · intro xs d'' later healthy'' shown'' last token' answer' value'' known' tidy''
      obtain ⟨n, hn⟩ := last
      refine run_submit_of_answered healthy'' (later.answered ?_ shown'') known' hn tidy''
      intro n hn hid
      rcases Memory.mem_promote.mp hn with rfl | ⟨-, hne⟩
      · rfl
      · exact absurd hid hne

end Service

/-- With a call engine that accepts what it is told, an answer that counts is taken exactly if the
view of the meeting at that moment invites to the survey, and it is not allowed exactly if the view
does not; it is told that there is no meeting exactly if none is shown, and that the token is not
valid exactly if that is told instead of a view. Once an answer is taken, the view shows it and does
not invite any more, and nothing else in it is different; no further answer is allowed as long as
the meeting is shown. -/
theorem invited_iff_taken (s : Service) {d : Deployment} (healthy : d.Healthy)
    (accepting : ∀ push, (d.engine.call push).1 = .ok ()) (token : String) {answer : String}
    (filled : Text.Blank.trim answer ≠ "")
    (short : (Text.Blank.trim answer).length ≤ Meeting.maxAnswerLength) :
    let r := (d.run (s.submit token answer).run).1
    let d' := (d.run (s.submit token answer).run).2
    let look := (d.run (s.get token).run).1
    (r = .ok () ↔ ∃ v, look = .ok (some v) ∧ v.allowSatisfaction = true) ∧
    ((∃ reason, r = .error (.notAllowed reason)) ↔
      ∃ v, look = .ok (some v) ∧ v.allowSatisfaction = false) ∧
    (r = .error .notFound ∨ r = .error .expired ↔ look = .ok none) ∧
    (r = .error .invalidToken ↔ look = .error .invalidToken) ∧
    (r = .ok () → ∃ id, s.cipher.redeem token = .ok id ∧
      AnswerTaken s d d' token id (Text.Blank.trim answer)) := by
  have tidy : Meeting.tidyAnswer answer = .ok (Text.Blank.trim answer) :=
    Meeting.tidyText_of_filled filled short
  have hconcurs : Concurs (d.run (s.submit token answer).run).1 (d.run (s.get token).run).1 :=
    concurs healthy accepting tidy
  refine ⟨hconcurs.eq_ok_iff, hconcurs.eq_notAllowed_iff, hconcurs.eq_absent_iff,
    hconcurs.eq_invalidToken_iff, fun hr => ?_⟩
  have hsubmitted := s.submitted healthy token answer
  generalize d.run (s.submit token answer).run = x at hsubmitted hr ⊢
  obtain ⟨r, d'⟩ := x
  cases hr
  exact hsubmitted.taken healthy tidy

open System.Sample in
/-- The survey of the first meeting is answered once a call has connected, and no second time. -/
theorem first_answer_stands : ∃ d : Deployment,
    ((calm 0 [called service]).run (service.submit (token service) " good ").run) = (.ok (), d) ∧
    (∃ v, (d.run (service.get (token service)).run).1 = .ok (some v) ∧
      v.satisfaction = some "good" ∧ v.allowSatisfaction = false) ∧
    (d.run (service.submit (token service) "bad").run).1 =
      .error (.notAllowed "satisfaction already recorded") := by
  have healthy : (calm 0 [called service]).Healthy := fun _ => rfl
  have known := redeem_token service
  have shown : Shows (calm 0 [called service]) id (called service) := ⟨rfl, rfl, rfl⟩
  have htrim : Text.Blank.trim " good " = "good" := by decide +kernel
  have filled : Text.Blank.trim " good " ≠ "" := by decide +kernel
  have short : (Text.Blank.trim " good ").length ≤ Meeting.maxAnswerLength := by decide +kernel
  obtain ⟨htaken, -, -, -, hafter⟩ :=
    invited_iff_taken service healthy (fun _ => rfl) (token service) filled short
  have hr := htaken.mpr ⟨_, run_get_of_shows healthy known shown, rfl⟩
  obtain ⟨id', known', taken⟩ := hafter hr
  cases known.symm.trans known'
  rw [htrim] at taken
  have healthy' := healthy.run (service.submit (token service) " good ").run
  generalize (calm 0 [called service]).run (service.submit (token service) " good ").run = x
    at hr taken healthy' ⊢
  obtain ⟨r, d⟩ := x
  cases hr
  obtain ⟨v, -, hv⟩ := taken.before
  have shown' : ∃ m, Shows d id m := by
    by_contra h
    have hnone := (run_get_eq_none_iff healthy' known).mpr (hides_iff.mpr (not_exists.mp h))
    exact Option.some_ne_none _ (Except.ok.inj (hv.symm.trans hnone))
  refine ⟨d, rfl, ⟨_, hv, rfl, rfl⟩, ?_⟩
  have tidy : Meeting.tidyAnswer "bad" = .ok "bad" := by decide +kernel
  exact taken.after [] d .start healthy' (by simp) shown' (token service) "bad" "bad" known tidy

end Rendezvous
