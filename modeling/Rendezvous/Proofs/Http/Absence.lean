import Rendezvous.Proofs.Collaborator.Client
import Rendezvous.Proofs.Http.Rejection
import Rendezvous.Proofs.Interleaving.Lifecycle
import Rendezvous.Proofs.Store.History
import Rendezvous.Proofs.Token.Spelling

namespace Rendezvous

open Store

def TellsAbsence (r : Except Fault Unit) : Prop := r = .error .notFound ∨ r = .error .expired

theorem Fault.status_eq_404_iff {fault : Fault} :
    fault.status = 404 ↔ fault = .notFound ∨ fault = .expired := by
  cases fault <;> simp [status]

theorem tellsAbsence_error_iff {fault : Fault} :
    TellsAbsence (.error fault) ↔ fault = .notFound ∨ fault = .expired := by
  simp [TellsAbsence]

theorem Collaborator.tellsAbsence_send_iff {p : Peer} {network : Request → Option Nat} {c : Call} :
    TellsAbsence (p.send network c).2 ↔
      ∃ request, p.request? c = some request ∧ network request = some 404 := by
  rw [← Peer.send_eq_notFound_iff]
  exact ⟨fun h => h.resolve_right Peer.send_ne_expired, .inl⟩

namespace Service

variable {s : Service} {d : Deployment} {token id answer : String}

/-- That callers do not see a meeting: none is stored, or one that has expired without a call. -/
def Hides (d : Deployment) (id : String) : Prop :=
  ∀ m, d.memory.find? id = some m →
    m.callId = none ∧ (m.isExpiredAt d.storeClock.now ∨ m.isExpiredAt d.clock.now)

theorem hides_iff : Hides d id ↔ ∀ m, ¬Shows d id m := by
  constructor
  · intro hides m shown
    obtain ⟨uncalled, expired | expired⟩ := hides m shown.held
    · exact not_isVisibleAt.mpr ⟨of_decide_eq_true expired, uncalled⟩ shown.fresh
    · exact not_isVisibleAt.mpr ⟨of_decide_eq_true expired, uncalled⟩ shown.visible
  · intro h m held
    by_cases fresh : m.isVisibleAt d.storeClock.now
    · have hidden : ¬m.isVisibleAt d.clock.now := fun visible => h m ⟨held, fresh, visible⟩
      obtain ⟨expired, uncalled⟩ := not_isVisibleAt.mp hidden
      exact ⟨uncalled, .inr (decide_eq_true expired)⟩
    · obtain ⟨expired, uncalled⟩ := not_isVisibleAt.mp fresh
      exact ⟨uncalled, .inl (decide_eq_true expired)⟩

theorem Fetched.hides {fault : Fault} {d' : Deployment} (h : Fetched d id (.error fault, d')) :
    Hides d id :=
  hides_iff.mpr fun _ shown => shown.not_missed h

theorem run_get_of_shows (healthy : d.Healthy) (known : s.cipher.redeem token = .ok id)
    {m : Meeting} (shown : Shows d id m) :
    (d.run (s.get token).run).1 = .ok (some (m.view token)) := by
  have hresult := s.got healthy token
  generalize d.run (s.get token).run = z at hresult
  cases hresult with
  | rejected tally unknown => exact absurd known (unknown id)
  | gone known' read =>
    cases known.symm.trans known'
    exact absurd read shown.not_missed
  | seen tally known' shown' =>
    cases known.symm.trans known'
    cases shown.held.symm.trans shown'.held
    rfl

/-- Nothing is shown of a meeting exactly if callers do not see it. -/
theorem run_get_eq_none_iff (healthy : d.Healthy) (known : s.cipher.redeem token = .ok id) :
    (d.run (s.get token).run).1 = .ok none ↔ Hides d id := by
  rw [hides_iff]
  constructor
  · intro hnone m shown
    cases (run_get_of_shows healthy known shown).symm.trans hnone
  · intro h
    have hresult := s.got healthy token
    generalize d.run (s.get token).run = z at hresult
    cases hresult with
    | rejected tally unknown => exact absurd known (unknown id)
    | gone known' read => rfl
    | seen tally known' shown' =>
      cases known.symm.trans known'
      exact absurd shown' (h _)

/-- That the call engine does not know the call whose survey is to be answered. -/
def CallUnknown (d : Deployment) (id value : String) : Prop :=
  ∃ m callId, Shows d id m ∧ surveyedCall m = .ok callId ∧
    TellsAbsence (d.engine.call (push m callId value)).1

theorem callUnknown_iff {value callId : String} {m : Meeting} (shown : Shows d id m)
    (opened : surveyedCall m = .ok callId) :
    CallUnknown d id value ↔ TellsAbsence (d.engine.call (push m callId value)).1 := by
  constructor
  · rintro ⟨m', callId', shown', opened', told⟩
    cases shown.held.symm.trans shown'.held
    cases opened.symm.trans opened'
    exact told
  · exact fun told => ⟨m, callId, shown, opened, told⟩

/-- Who submits an answer that counts is told of absence if callers do not see the meeting, or if
the call engine does not know its call, and not otherwise. -/
theorem tellsAbsence_submit_of_tidy (healthy : d.Healthy) (known : s.cipher.redeem token = .ok id)
    {value : String} (tidy : Meeting.tidyAnswer answer = .ok value) :
    TellsAbsence (d.run (s.submit token answer).run).1 ↔ Hides d id ∨ CallUnknown d id value := by
  have hresult := s.submitted healthy token answer
  generalize d.run (s.submit token answer).run = z at hresult
  rw [hides_iff]
  cases hresult with
  | untidy refused => cases tidy.symm.trans refused
  | rejected tally unknown => exact absurd known (unknown id)
  | missed known' read =>
    cases known.symm.trans known'
    refine iff_of_true (tellsAbsence_error_iff.mpr read.fault) (.inl fun m shown => ?_)
    exact shown.not_missed read
  | notAllowed tally known' shown closed =>
    cases known.symm.trans known'
    refine iff_of_false (by simp [TellsAbsence]) ?_
    rintro (hidden | ⟨m, callId, shown', opened, -⟩)
    · exact hidden _ shown
    · cases shown.held.symm.trans shown'.held
      cases closed.symm.trans opened
  | refused tally tidy' known' shown opened pushed =>
    cases known.symm.trans known'
    cases tidy.symm.trans tidy'
    rw [callUnknown_iff shown opened, pushed]
    exact ⟨.inr, fun h => h.resolve_left fun hidden => hidden _ shown⟩
  | noted tally tidy' known' shown opened pushed =>
    cases known.symm.trans known'
    cases tidy.symm.trans tidy'
    rw [callUnknown_iff shown opened, pushed]
    exact ⟨.inr, fun h => h.resolve_left fun hidden => hidden _ shown⟩

theorem tellsAbsence_submit_iff (healthy : d.Healthy) (known : s.cipher.redeem token = .ok id) :
    TellsAbsence (d.run (s.submit token answer).run).1 ↔
      ∃ value, Meeting.tidyAnswer answer = .ok value ∧ (Hides d id ∨ CallUnknown d id value) := by
  cases htidy : Meeting.tidyAnswer answer with
  | error fault =>
    obtain ⟨reason, rfl⟩ := Meeting.of_tidyAnswer_error htidy
    rw [Http.run_submit_of_untidy htidy]
    simp [TellsAbsence]
  | ok value =>
    rw [tellsAbsence_submit_of_tidy healthy known htidy]
    simp

end Service

namespace Http

open Service

variable {s : Service} {d : Deployment} {r : Request} {text : String}

theorem status_answer_eq_404_iff {a : Action Unit} {response : Unit → Response}
    (h : ∀ v, (response v).status ≠ 404) :
    (d.run (answer a response)).1.status = 404 ↔ TellsAbsence (d.run a.run).1 := by
  unfold answer
  rw [Deployment.run_bind]
  rcases d.run a.run with ⟨fault | v, d'⟩
  · exact Fault.status_eq_404_iff.trans tellsAbsence_error_iff.symm
  · exact iff_of_false (h v) (by simp [TellsAbsence])

/-- A request that gets as far as the service is answered with 404 if the service tells of absence;
one that does not is answered with something else. -/
theorem status_serve_eq_404_iff (h : r.Presents .survey text) :
    (d.run (serve s r)).1.status = 404 ↔ ∃ survey, r.record Meeting.Survey.record = .ok survey ∧
      TellsAbsence (d.run (s.submit text survey.answer).run).1 := by
  obtain ⟨segment, routed, taken, decoded⟩ := h
  have hroute : route s r = accept (r.record Meeting.Survey.record) fun survey =>
      answer (s.submit text survey.answer) fun _ => { status := 204 } := by
    rw [route, routed]
    refine (if_pos taken).trans ?_
    change respond s r (.satisfaction segment) = _
    rw [respond, decoded, accept]
  rcases hrun : d.run (route s r) with ⟨response, d'⟩
  rw [run_serve hrun, Request.status_sent]
  rw [hroute] at hrun
  cases hrecord : r.record Meeting.Survey.record with
  | error refusal =>
    rw [hrecord] at hrun
    cases hrun
    refine iff_of_false ?_ (by simp)
    cases refusal with
    | body failure =>
      dsimp only [Refusal.response]
      split <;> simp [Response.text]
    | _ => simp [Refusal.response, Response.text]
  | ok survey =>
    rw [hrecord, accept] at hrun
    have hstatus : response.status = (d.run (answer (s.submit text survey.answer)
        fun _ => { status := 204 })).1.status := by rw [hrun]
    rw [hstatus, status_answer_eq_404_iff (by simp)]
    simp

/-- Whoever submits an answer with a token that is redeemed is told that there is no such meeting,
by the service as by 404 over HTTP, if the answer counts and callers do not see the meeting, but
also if they do see it, its survey is open, and the call engine answers the push that it does not
know the call; and not otherwise. The first is when there is nothing to get with the token; in the
second case the meeting is got at the same moment. Over HTTP the call engine answers so exactly if
the push is sent and answered with 404. -/
theorem absence_told_iff (s : Service) {d : Deployment} (healthy : d.Healthy) {token id : String}
    (known : s.cipher.redeem token = .ok id) :
    (∀ answer, TellsAbsence (d.run (s.submit token answer).run).1 ↔
      ∃ value, Meeting.tidyAnswer answer = .ok value ∧ (Hides d id ∨ CallUnknown d id value)) ∧
    (∀ r : Request, r.Presents .survey token → ((d.run (serve s r)).1.status = 404 ↔
      ∃ survey value, r.record Meeting.Survey.record = .ok survey ∧
        Meeting.tidyAnswer survey.answer = .ok value ∧
        (Hides d id ∨ CallUnknown d id value))) ∧
    ((d.run (s.get token).run).1 = .ok none ↔ Hides d id) ∧
    (∀ value, CallUnknown d id value → ∃ m, Shows d id m ∧ m.allowsSatisfaction ∧
      (d.run (s.get token).run).1 = .ok (some (m.view token))) ∧
    ∀ (p : Collaborator.Peer) (network : Collaborator.Request → Option Nat) (c : Collaborator.Call),
      TellsAbsence (p.send network c).2 ↔
        ∃ request, p.request? c = some request ∧ network request = some 404 := by
  refine ⟨fun answer => tellsAbsence_submit_iff healthy known, fun r presents => ?_,
    run_get_eq_none_iff healthy known, ?_, fun p network c => Collaborator.tellsAbsence_send_iff⟩
  · rw [status_serve_eq_404_iff presents]
    simp only [tellsAbsence_submit_iff healthy known]
    constructor
    · rintro ⟨survey, hrecord, value, tidy, h⟩
      exact ⟨survey, value, hrecord, tidy, h⟩
    · rintro ⟨survey, value, hrecord, tidy, h⟩
      exact ⟨survey, hrecord, value, tidy, h⟩
  · rintro value ⟨m, callId, shown, opened, -⟩
    exact ⟨m, shown, allowsSatisfaction_of_surveyedCall opened,
      run_get_of_shows healthy known shown⟩

end Http

namespace Service.Sample

open System.Sample

def call : Collaborator.Call := .setVariables 1 "c" (.single answerVariable "good")

def engine : Collaborator.Peer := .callEngine "http://engine" none

/-- The first meeting after a call, of which the call engine answers that it does not know it. -/
def forgotten : Deployment :=
  { calm 0 [called service] with
    engine := .present (fun _ => (engine.send (fun _ => some 404) call).2) [] }

theorem callUnknown_forgotten : CallUnknown forgotten id "good" := by
  refine ⟨called service, "c", ⟨rfl, rfl, rfl⟩, rfl, ?_⟩
  obtain ⟨request, sent⟩ : ∃ request, engine.request? call = some request :=
    Option.isSome_iff_exists.mp (by decide +kernel)
  exact Collaborator.tellsAbsence_send_iff.mpr ⟨request, sent, rfl⟩

theorem genuine_forgotten : forgotten.engine.Genuine := fun _ => .sent engine _ call

/-- The call engine can forget the call at any time after it was noted. -/
theorem exists_forgotten :
    ∃ w, System.Reachable service w ∧ w.deployment = forgotten := by
  obtain ⟨w₀, w, hw₀, hsteps, -, hcapacity, hmeetings⟩ := System.exists_called service
  have hdrift : System.Step service w { w with deployment := forgotten } :=
    .drift w forgotten hmeetings.symm hcapacity.symm
  exact ⟨_, (hw₀.steps hsteps).steps (.single hdrift), rfl⟩

theorem get_forgotten_ne_none : (forgotten.run (service.get (token service)).run).1 ≠ .ok none := by
  have shown : Shows forgotten id (called service) := ⟨rfl, rfl, rfl⟩
  have got := run_get_of_shows (fun _ => rfl) (redeem_token service) shown
  intro hnone
  cases got.symm.trans hnone

theorem submit_forgotten :
    TellsAbsence (forgotten.run (service.submit (token service) "good").run).1 := by
  exact (tellsAbsence_submit_iff (fun _ => rfl) (redeem_token service)).mpr
    ⟨"good", tidyAnswer_good, .inr callUnknown_forgotten⟩

def answering : Http.Request :=
  Http.Sample.request ("/v1/meetings/" ++ (token service ++ "/satisfaction"))

theorem presents_answering : answering.Presents .survey (token service) :=
  Http.Request.presents_of_urlSafe (service.cipher.urlSafe_issue _ id)
    (service.cipher.issue_ne_empty _ id) List.mem_cons_self rfl

theorem record_answering :
    ∃ survey, answering.record Meeting.Survey.record = .ok survey ∧ survey.answer = "good" := by
  have hread : ((Http.Sample.request "").record Meeting.Survey.record).toOption.map
      Meeting.Survey.answer = some "good" := by decide +kernel
  change ∃ survey, (Http.Sample.request "").record Meeting.Survey.record = .ok survey ∧ _
  cases hrecord : (Http.Sample.request "").record Meeting.Survey.record with
  | error refusal =>
    rw [hrecord] at hread
    cases hread
  | ok survey =>
    rw [hrecord] at hread
    exact ⟨survey, rfl, Option.some.inj hread⟩

theorem status_answering : (forgotten.run (Http.serve service answering)).1.status = 404 := by
  obtain ⟨survey, hrecord, hanswer⟩ := record_answering
  exact (Http.status_serve_eq_404_iff presents_answering).mpr
    ⟨survey, hrecord, hanswer ▸ submit_forgotten⟩

end Service.Sample

open Service.Sample System.Sample in
/-- A meeting that is shown, and whose survey is open, is told to be missing. -/
theorem shown_meeting_told_missing :
    TellsAbsence (forgotten.run (service.submit (token service) "good").run).1 ∧
    ∃ m : Meeting, m.allowsSatisfaction ∧
      (forgotten.run (service.get (token service)).run).1 = .ok (some (m.view (token service))) := by
  have healthy : forgotten.Healthy := fun _ => rfl
  obtain ⟨submitted, -, -, shown, -⟩ :=
    Http.absence_told_iff service healthy (redeem_token service)
  obtain ⟨m, -, allowed, got⟩ := shown "good" callUnknown_forgotten
  have told := (submitted "good").mpr ⟨"good", tidyAnswer_good, .inr callUnknown_forgotten⟩
  exact ⟨told, m, allowed, got⟩

open Service.Sample System.Sample in
/-- Neither by the service nor over HTTP does absence always mean that there is nothing to get. -/
theorem absence_told_of_shown :
    (¬∀ (s : Service) (w : System), System.Reachable s w → w.deployment.Healthy →
      w.deployment.engine.Genuine → ∀ token id answer, s.cipher.redeem token = .ok id →
      TellsAbsence (w.deployment.run (s.submit token answer).run).1 →
      (w.deployment.run (s.get token).run).1 = .ok none) ∧
    ¬∀ (s : Service) (w : System), System.Reachable s w → w.deployment.Healthy →
      w.deployment.engine.Genuine → ∀ token id, s.cipher.redeem token = .ok id →
      ∀ r : Http.Request, r.Presents .survey token →
      (w.deployment.run (Http.serve s r)).1.status = 404 →
      (w.deployment.run (s.get token).run).1 = .ok none := by
  obtain ⟨w, hw, hd⟩ := exists_forgotten
  have healthy : w.deployment.Healthy := hd ▸ fun _ => rfl
  have genuine : w.deployment.engine.Genuine := hd ▸ genuine_forgotten
  have known := redeem_token service
  constructor
  · intro claimed
    have hnone := claimed service w hw healthy genuine _ id "good" known (hd ▸ submit_forgotten)
    exact get_forgotten_ne_none (hd ▸ hnone)
  · intro claimed
    have hnone := claimed service w hw healthy genuine _ id known answering presents_answering
      (hd ▸ status_answering)
    exact get_forgotten_ne_none (hd ▸ hnone)

end Rendezvous
