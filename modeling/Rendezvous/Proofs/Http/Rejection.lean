import Rendezvous.Http.Server
import Rendezvous.Proofs.Http.Path
import Rendezvous.Proofs.Metrics.Tally
import Rendezvous.Proofs.Service.Results
import Rendezvous.Proofs.Text.UrlSafe

namespace Rendezvous.Http

open Metrics (Rejection Series)

inductive Gate where
  | meeting
  | survey

namespace Gate

def route : Gate → String → Route
  | meeting => .meeting
  | survey => .satisfaction

def endpoint : Gate → Endpoint
  | meeting => .meeting
  | survey => .satisfaction

def rest : Gate → String
  | meeting => ""
  | survey => "/satisfaction"

end Gate

namespace Request

def Presents (r : Request) (g : Gate) (text : String) : Prop :=
  ∃ segment, Route.ofPath? r.path = some (g.route segment) ∧
    r.method ∈ (g.route segment).methods ∧ token segment = .ok text

/-- What a request is refused with for what it asks, before its token is looked at. -/
def refusal? (r : Request) : Gate → Option Response
  | .meeting => none
  | .survey =>
    match r.record Meeting.Survey.record with
    | .error refusal => some refusal.response
    | .ok survey =>
      match Meeting.tidyAnswer survey.answer with
      | .error fault => some (.ofFault fault)
      | .ok _ => none

def sent (r : Request) (response : Response) : Response :=
  if r.method = "HEAD" then response.withoutBody else response

theorem refusal?_congr {r r' : Request} (headers : r'.headers = r.headers)
    (body : r'.body = r.body) (g : Gate) : r'.refusal? g = r.refusal? g := by
  have hjson : r'.hasJson = r.hasJson := by
    rw [hasJson, hasJson, header?, header?, headers]
  have hrecord : r'.record Meeting.Survey.record = r.record Meeting.Survey.record := by
    rw [record, record, hjson, body]
  cases g with
  | meeting => rfl
  | survey => rw [refusal?, refusal?, hrecord]

theorem status_sent (r : Request) (response : Response) :
    (r.sent response).status = response.status := by
  unfold sent
  split <;> rfl

end Request

variable {s : Service} {r : Request} {g : Gate} {text : String}

theorem run_answer_of_error {α : Type} {a : Action α} {d d' : Deployment} {fault : Fault}
    (h : d.run a.run = (.error fault, d')) (response : α → Response) :
    d.run (answer a response) = (.ofFault fault, d') := by
  change d.run (a.run >>= _) = _
  rw [Deployment.run_bind, h]
  rfl

theorem run_submit_of_untidy {answer : String} {fault : Fault}
    (h : Meeting.tidyAnswer answer = .error fault) (d : Deployment) :
    d.run (s.submit text answer).run = (.error fault, d) := by
  unfold Service.submit
  rw [h]
  rfl

theorem run_submit_of_rejected {answer value : String} (h : Meeting.tidyAnswer answer = .ok value)
    {d d' : Deployment} {fault : Fault}
    (rejected : d.run (s.redeem text).run = (.error fault, d')) :
    d.run (s.submit text answer).run = (.error fault, d') := by
  unfold Service.submit
  rw [h, show Action.ofExcept (.ok value : Except Fault String) = pure value from rfl, pure_bind]
  exact Deployment.run_bind_of_error rejected

/-- A token that is not redeemed is found out before anything else is asked. -/
theorem run_route_of_rejected (h : r.Presents g text) {fault : Token.Fault}
    (rejected : s.cipher.redeem text = .error fault) (d : Deployment) :
    (∃ response, r.refusal? g = some response ∧ d.run (route s r) = (response, d)) ∨
      r.refusal? g = none ∧ ∃ reason,
        d.run (route s r) = (.ofFault .invalidToken, d.count (.tokenRejected reason)) := by
  obtain ⟨segment, routed, taken, decoded⟩ := h
  have hroute : route s r = respond s r (g.route segment) := by
    rw [route, routed]
    exact if_pos taken
  obtain ⟨reason, hredeem⟩ := s.run_redeem_of_error rejected d
  rw [hroute]
  cases g with
  | meeting =>
    refine .inr ⟨rfl, reason, ?_⟩
    change d.run (respond s r (.meeting segment)) = _
    rw [respond, decoded, accept]
    by_cases hdelete : r.method = "DELETE"
    · rw [if_pos hdelete]
      exact run_answer_of_error (Deployment.run_bind_of_error hredeem) _
    · rw [if_neg hdelete]
      exact run_answer_of_error (Deployment.run_bind_of_error hredeem) _
  | survey =>
    -- the body and the answer in it are judged before the token
    have hrespond : respond s r (Gate.survey.route segment) =
        accept (r.record Meeting.Survey.record) fun survey =>
          answer (s.submit text survey.answer) fun _ => { status := 204 } := by
      change respond s r (.satisfaction segment) = _
      rw [respond, decoded, accept]
    rw [hrespond, Request.refusal?]
    cases r.record Meeting.Survey.record with
    | error refusal => exact .inl ⟨refusal.response, rfl, rfl⟩
    | ok survey =>
      dsimp only
      rw [accept]
      cases htidy : Meeting.tidyAnswer survey.answer with
      | error fault =>
        exact .inl ⟨_, rfl, run_answer_of_error (run_submit_of_untidy htidy d) _⟩
      | ok value =>
        exact .inr ⟨rfl, reason, run_answer_of_error (run_submit_of_rejected htidy hredeem) _⟩

theorem run_serve {d d' : Deployment} {response : Response}
    (h : d.run (route s r) = (response, d')) :
    d.run (serve s r) = (r.sent response, d'.count (.served r.method r.path response.status)) := by
  change d.run (route s r >>= _) = _
  rw [Deployment.run_bind, h]
  rfl

theorem status_refusal {response : Response} (h : r.refusal? g = some response) :
    response.status ≠ 500 := by
  cases g with
  | meeting => cases h
  | survey =>
    cases hrecord : r.record Meeting.Survey.record with
    | error refusal =>
      simp only [Request.refusal?, hrecord, Option.some.injEq] at h
      subst h
      cases refusal with
      | body failure =>
        dsimp only [Refusal.response]
        split <;> simp [Response.text]
      | _ => simp [Refusal.response, Response.text]
    | ok survey =>
      cases htidy : Meeting.tidyAnswer survey.answer with
      | error fault =>
        simp only [Request.refusal?, hrecord, htidy, Option.some.injEq] at h
        obtain ⟨reason, rfl⟩ := Meeting.of_tidyAnswer_error htidy
        subst h
        simp [Response.ofFault, Response.json, Fault.status]
      | ok value => simp [Request.refusal?, hrecord, htidy] at h

theorem decode_eq_nil {bs : List UInt8} (h : Text.Percent.decode bs = []) : bs = [] := by
  unfold Text.Percent.decode at h
  split at h
  · rfl
  · split at h <;> cases h
  · cases h

theorem token_eq_ok {segment : String}
    (h : Text.Percent.decode (Text.Utf8.encode segment) = Text.Utf8.encode text) :
    token segment = .ok text := by
  rw [token, Text.Percent.decodeText?, Text.Utf8.decode?_eq_some_iff.mpr h]

theorem eq_empty_iff_of_token {segment : String} (h : token segment = .ok text) :
    text = "" ↔ segment = "" := by
  constructor
  · rintro rfl
    unfold token at h
    split at h
    · next hdecode =>
      cases h
      have hoctets := Text.Utf8.decode?_eq_some_iff.mp hdecode
      exact Text.Utf8.encode_injective (decode_eq_nil hoctets)
    · cases h
  · rintro rfl
    have hempty : token "" = .ok "" := token_eq_ok rfl
    exact (Except.ok.inj (hempty.symm.trans h)).symm

theorem Request.path_of_target {cs : List Char} (target : r.target.toList = '/' :: cs)
    (plain : ∀ c ∈ r.target.toList, c ≠ '?' ∧ c ≠ '#') : r.path = r.target := by
  have hfrom : fromPath r.target.toList = r.target.toList := by
    rw [target]
    rfl
  have htake : r.target.toList.takeWhile (fun c => c != '?' && c != '#') = r.target.toList :=
    List.takeWhile_eq_self_iff.mpr fun c hc => by simpa using plain c hc
  unfold path
  rw [hfrom, htake, target]
  dsimp only
  rw [← target, String.ofList_toList]

theorem Request.presents_of_urlSafe (safe : Text.UrlSafe text) (filled : text ≠ "")
    (taken : r.method ∈ (g.route text).methods)
    (target : r.target = "/v1/meetings/" ++ (text ++ g.rest)) : r.Presents g text := by
  have hlist : r.target.toList = "/v1/meetings/".toList ++ (text.toList ++ g.rest.toList) := by
    rw [target, String.toList_append, String.toList_append]
  have hslash : '/' ∉ text.toList := safe.not_mem (by decide)
  have plain : ∀ c ∈ r.target.toList, c ≠ '?' ∧ c ≠ '#' := by
    intro c hc
    have hquery : '?' ∉ text.toList := safe.not_mem (by decide)
    have hfragment : '#' ∉ text.toList := safe.not_mem (by decide)
    have hrest : ∀ c ∈ g.rest.toList, c ≠ '?' ∧ c ≠ '#' := by
      cases g <;> simp [Gate.rest]
    have hfixed : ∀ c ∈ "/v1/meetings/".toList, c ≠ '?' ∧ c ≠ '#' := by simp
    rw [hlist, List.mem_append, List.mem_append] at hc
    rcases hc with hc | hc | hc
    · exact hfixed c hc
    · exact ⟨fun h => hquery (h ▸ hc), fun h => hfragment (h ▸ hc)⟩
    · exact hrest c hc
  have hpath : r.path = r.target := path_of_target hlist plain
  have hdecoded : token text = .ok text := token_eq_ok (Text.Percent.decode_encode_of_urlSafe safe)
  refine ⟨text, ?_, taken, hdecoded⟩
  rw [hpath]
  cases g with
  | meeting => exact Route.ofPath?_eq_meeting (by simpa [Gate.rest] using hlist) hslash filled
  | survey => exact Route.ofPath?_eq_satisfaction hlist hslash

/-- A request for a token is counted as that, unless the token is empty. -/
theorem Request.Presents.endpoint (h : r.Presents g text) :
    Endpoint.ofPath r.path = if text = "" then .other else g.endpoint := by
  obtain ⟨segment, routed, _, decoded⟩ := h
  cases g with
  | meeting =>
    rw [Endpoint.ofPath_of_meeting routed, if_neg]
    · rfl
    · rw [eq_empty_iff_of_token decoded]
      exact (Route.toList_of_meeting routed).2.2
  | survey =>
    rw [Endpoint.ofPath_of_satisfaction routed]
    simp only [eq_empty_iff_of_token decoded]
    rfl

def rejections (reason : Rejection) : Series :=
  ⟨"meeting_token_rejections_total", [("reason", reason.label)]⟩

theorem of_count_rejected {e : Series} (h : ∀ reason, e.text ≠ (rejections reason).text)
    (t : Metrics.Tally) (reason : Rejection) : (t.count (.tokenRejected reason)).of e = t.of e := by
  rw [Metrics.Tally.of_count, Metrics.grown_eq_zero, Nat.add_zero]
  intro g hg
  obtain rfl := List.mem_singleton.mp hg
  exact (h reason).symm

theorem sum_count_rejected (t : Metrics.Tally) (reason : Rejection) :
    (t.count (.tokenRejected reason)).of (rejections .malformed) +
        (t.count (.tokenRejected reason)).of (rejections .invalid) =
      t.of (rejections .malformed) + t.of (rejections .invalid) + 1 := by
  have hone : ∀ reason, Metrics.grown (Metrics.Event.tokenRejected reason).growth
      (rejections .malformed) + Metrics.grown (Metrics.Event.tokenRejected reason).growth
      (rejections .invalid) = 1 := by
    intro reason
    cases reason <;> decide
  rw [Metrics.Tally.of_count, Metrics.Tally.of_count]
  have := hone reason
  omega

theorem of_count_served (t : Metrics.Tally) (method path : String) (status : Nat)
    (reason : Rejection) :
    (t.count (.served method path status)).of (rejections reason) = t.of (rejections reason) := by
  rw [Metrics.Tally.of_count, Metrics.grown_eq_zero, Nat.add_zero]
  simp only [Metrics.Event.growth, List.forall_mem_cons, List.not_mem_nil, false_imp_iff,
    implies_true, and_true]
  exact ⟨Series.text_ne "meeting_http_request_duration_seconds_count"
      "meeting_token_rejections_total" 9 rfl rfl (by decide) (by decide) (by decide),
    Series.text_ne "meeting_http_requests_total"
      "meeting_token_rejections_total" 9 rfl rfl (by decide) (by decide) (by decide)⟩

def Request.series (r : Request) (status : Nat) : List Series :=
  (Metrics.Event.served r.method r.path status).growth.map Prod.fst

structure Aftermath (s : Service) (d : Deployment) (r : Request) (g : Gate) : Prop where
  counted : (d.run (serve s r)).2 = { d with tally := (d.run (serve s r)).2.tally }
  /-- one token is counted as rejected, if the request asks for nothing wrong -/
  rejected : (d.run (serve s r)).2.tally.of (rejections .malformed) +
      (d.run (serve s r)).2.tally.of (rejections .invalid) =
    d.tally.of (rejections .malformed) + d.tally.of (rejections .invalid) +
      if (r.refusal? g).isNone then 1 else 0
  others : ∀ e : Series, (∀ reason, e.text ≠ (rejections reason).text) →
    (d.run (serve s r)).2.tally.of e = (d.tally.count
      (.served r.method r.path (d.run (serve s r)).1.status)).of e

/-- The answer to a request with a token that is not redeemed, and what it leaves behind, do not
depend on the token. -/
theorem run_serve_of_rejected (h : r.Presents g text) {fault : Token.Fault}
    (rejected : s.cipher.redeem text = .error fault) (d : Deployment) :
    (d.run (serve s r)).1 = r.sent ((r.refusal? g).getD (.ofFault .invalidToken)) ∧
      Aftermath s d r g := by
  rcases run_route_of_rejected h rejected d with ⟨response, hrefusal, hrun⟩ | ⟨hvalid, reason, hrun⟩
  · have hserve := run_serve hrun
    refine ⟨by rw [hserve, hrefusal]; rfl, by rw [hserve]; rfl, ?_, fun e _ => ?_⟩
    · rw [hserve, hrefusal]
      dsimp only [Deployment.count]
      rw [of_count_served, of_count_served]
      rfl
    · rw [hserve, Request.status_sent]
      rfl
  · have hserve := run_serve hrun
    refine ⟨by rw [hserve, hvalid]; rfl, by rw [hserve]; rfl, ?_, fun e he => ?_⟩
    · rw [hserve, hvalid]
      dsimp only [Deployment.count]
      rw [of_count_served, of_count_served, sum_count_rejected]
      rfl
    · rw [hserve, Request.status_sent]
      dsimp only [Deployment.count]
      rw [Metrics.Tally.of_count, of_count_rejected he, ← Metrics.Tally.of_count]

theorem grown_served {r' : Request} (hmethod : r'.method = r.method)
    (hendpoint : Endpoint.ofPath r'.path = Endpoint.ofPath r.path) (status : Nat) :
    (Metrics.Event.served r'.method r'.path status).growth =
      (Metrics.Event.served r.method r.path status).growth := by
  simp only [Metrics.Event.growth, Metrics.servedLabels, hmethod, hendpoint]

theorem Aftermath.of_eq {d : Deployment} {r' : Request} (h : Aftermath s d r g)
    (h' : Aftermath s d r' g) (hmethod : r'.method = r.method)
    (hresponse : (d.run (serve s r')).1 = (d.run (serve s r)).1) {e : Series}
    (he : ∀ reason, e.text ≠ (rejections reason).text)
    (halike : Endpoint.ofPath r'.path = Endpoint.ofPath r.path ∨
      ∀ o ∈ r.series (d.run (serve s r)).1.status ++ r'.series (d.run (serve s r)).1.status,
        e.text ≠ o.text) :
    (d.run (serve s r')).2.tally.of e = (d.run (serve s r)).2.tally.of e := by
  rw [h.others e he, h'.others e he, hresponse, Metrics.Tally.of_count, Metrics.Tally.of_count]
  generalize (d.run (serve s r)).1.status = status at halike
  refine congrArg (d.tally.of e + ·) ?_
  rcases halike with hendpoint | hne
  · rw [grown_served hmethod hendpoint]
  · have hzero {r : Request} (hr : ∀ o ∈ r.series status, e.text ≠ o.text) :
        Metrics.grown (Metrics.Event.served r.method r.path status).growth e = 0 :=
      Metrics.grown_eq_zero fun o ho => (hr o.1 (List.mem_map_of_mem ho)).symm
    rw [hzero fun o ho => hne o (List.mem_append_right _ ho),
      hzero fun o ho => hne o (List.mem_append_left _ ho)]

/-- Nobody can tell from an answer why a token was rejected, and nothing is left behind but counts:
that a token was rejected, for one of two reasons, and the request itself. The request is counted
alike for both tokens, unless just one of them is empty. -/
theorem rejected_tokens_alike (s : Service) (d : Deployment) {r r' : Request} {g : Gate}
    {text text' : String} (same : r' = { r with target := r'.target })
    (h : r.Presents g text) (h' : r'.Presents g text')
    (rejected : ∃ fault, s.cipher.redeem text = .error fault)
    (rejected' : ∃ fault, s.cipher.redeem text' = .error fault) :
    (d.run (serve s r')).1 = (d.run (serve s r)).1 ∧ (d.run (serve s r)).1.status ≠ 500 ∧
      (r.refusal? g = none → (d.run (serve s r)).1 = r.sent (.ofFault .invalidToken)) ∧
      Aftermath s d r g ∧ Aftermath s d r' g ∧
      (Endpoint.ofPath r.path = if text = "" then .other else g.endpoint) ∧
      (Endpoint.ofPath r'.path = if text' = "" then .other else g.endpoint) ∧
      ∀ e : Series, (∀ reason, e.text ≠ (rejections reason).text) →
        ((text = "" ↔ text' = "") ∨
          ∀ o ∈ r.series (d.run (serve s r)).1.status ++ r'.series (d.run (serve s r)).1.status,
            e.text ≠ o.text) →
        (d.run (serve s r')).2.tally.of e = (d.run (serve s r)).2.tally.of e := by
  obtain ⟨fault, hr⟩ := rejected
  obtain ⟨fault', hr'⟩ := rejected'
  obtain ⟨hx, aftermath⟩ := run_serve_of_rejected h hr d
  obtain ⟨hx', aftermath'⟩ := run_serve_of_rejected h' hr' d
  have hmethod : r'.method = r.method := by rw [same]
  have hrefusal : r'.refusal? g = r.refusal? g :=
    Request.refusal?_congr (by rw [same]) (by rw [same]) g
  have hresponse : (d.run (serve s r')).1 = (d.run (serve s r)).1 := by
    rw [hx, hx', hrefusal, Request.sent, Request.sent, hmethod]
  have hstatus : ((r.refusal? g).getD (.ofFault .invalidToken)).status ≠ 500 := by
    cases hcase : r.refusal? g with
    | none => decide
    | some response => exact status_refusal hcase
  refine ⟨hresponse, ?_, ?_, aftermath, aftermath', h.endpoint, h'.endpoint, ?_⟩
  · rw [hx, Request.status_sent]
    exact hstatus
  · intro hvalid
    rw [hx, hvalid]
    rfl
  · intro e he halike
    refine aftermath.of_eq aftermath' hmethod hresponse he (halike.imp_left fun hempty => ?_)
    rw [h'.endpoint, h.endpoint]
    simp only [hempty]

namespace Sample

def service : Service := ⟨.ofSecret (Text.Utf8.encode "secret"), Store.Memory.backend, 3600⟩

def deployment : Deployment := .start 0 1 .accepting .accepting ⟨fun _ _ => none, 0⟩

def request (target : String) : Request :=
  ⟨"POST", target, [("content-type", "application/json")],
    Text.Utf8.encode "\x7b\"satisfaction\":\"good\"\x7d"⟩

theorem presents_empty : (request "/v1/meetings//satisfaction").Presents .survey "" :=
  ⟨"", by decide +kernel, by decide, token_eq_ok rfl⟩

theorem presents_short : (request "/v1/meetings/x/satisfaction").Presents .survey "x" :=
  ⟨"x", by decide +kernel, by decide, token_eq_ok (by decide)⟩

theorem rejected_empty : ∃ fault, service.cipher.redeem "" = .error fault := by
  have hspells : Token.Spells "" [] := ⟨0, by decide⟩
  exact ⟨_, service.cipher.redeem_short hspells (by decide)⟩

theorem rejected_short : ∃ fault, service.cipher.redeem "x" = .error fault := by
  have hspells : ∀ raw, ¬Token.Spells "x" raw := Token.not_spells (by decide) (by decide)
  obtain ⟨fault, hdecode⟩ := Token.decode_eq_error hspells
  exact ⟨_, service.cipher.redeem_of_decode_error hdecode⟩

theorem refusal?_request (target : String) : (request target).refusal? .survey = none := by
  have hnone : ((request "").refusal? .survey).isNone := by decide +kernel
  have hsame : (request target).refusal? .survey = (request "").refusal? .survey :=
    Request.refusal?_congr rfl rfl _
  rw [hsame, Option.isNone_iff_eq_none.mp hnone]

def other : Series :=
  ⟨"meeting_http_requests_total",
    [("method", "POST"), ("endpoint", "/other"), ("status_code", "401")]⟩

theorem other_ne (reason : Rejection) : other.text ≠ (rejections reason).text := by
  cases reason <;> decide

theorem grown_other {path : String} {endpoint : Endpoint} (h : Endpoint.ofPath path = endpoint) :
    Metrics.grown (Metrics.Event.served "POST" path 401).growth other =
      if endpoint = .other then 1 else 0 := by
  simp only [Metrics.Event.growth, Metrics.servedLabels, h]
  cases endpoint <;> decide +kernel

theorem of_other_served {target text : String} (h : (request target).Presents .survey text)
    (rejected : ∃ fault, service.cipher.redeem text = .error fault) :
    (deployment.run (serve service (request target))).2.tally.of other =
      if text = "" then 1 else 0 := by
  obtain ⟨fault, hr⟩ := rejected
  obtain ⟨hx, aftermath⟩ := run_serve_of_rejected h hr deployment
  have hstatus : (deployment.run (serve service (request target))).1.status = 401 := by
    rw [hx, refusal?_request, Request.status_sent]
    rfl
  have hmethod : (request target).method = "POST" := rfl
  have hnone : deployment.tally.of other = 0 := rfl
  rw [aftermath.others other other_ne, Metrics.Tally.of_count, hstatus, hmethod,
    grown_other h.endpoint, hnone, Nat.zero_add]
  by_cases hempty : text = ""
  · rw [if_pos hempty, if_pos hempty, if_pos rfl]
  · rw [if_neg hempty, if_neg hempty, if_neg (by decide)]

end Sample

open Sample in
/-- Two tokens that no key could have issued are answered alike. -/
theorem empty_and_short_alike :
    ((deployment.run (serve service (request "/v1/meetings/x/satisfaction"))).1 =
      (deployment.run (serve service (request "/v1/meetings//satisfaction"))).1) ∧
    (deployment.run (serve service (request "/v1/meetings//satisfaction"))).1.status ≠ 500 := by
  obtain ⟨hresponse, hstatus, _⟩ := rejected_tokens_alike service deployment rfl presents_empty
    presents_short rejected_empty rejected_short
  exact ⟨hresponse, hstatus⟩

open Sample in
/-- An empty token can be told from another by the endpoint that the request is counted under. -/
theorem empty_token_told : ¬∀ (s : Service) (d : Deployment) (r r' : Request) (g : Gate)
    (text text' : String), r' = { r with target := r'.target } → r.Presents g text →
    r'.Presents g text' → (∃ fault, s.cipher.redeem text = .error fault) →
    (∃ fault, s.cipher.redeem text' = .error fault) →
    ∀ e : Series, (∀ reason, e.text ≠ (rejections reason).text) →
      (d.run (serve s r')).2.tally.of e = (d.run (serve s r)).2.tally.of e := by
  intro h
  have hsame := h service deployment _ _ .survey "" "x" rfl presents_empty presents_short
    rejected_empty rejected_short other other_ne
  rw [of_other_served presents_empty rejected_empty, of_other_served presents_short rejected_short]
    at hsame
  cases hsame

end Rendezvous.Http
