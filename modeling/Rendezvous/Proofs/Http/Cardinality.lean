import Rendezvous.Proofs.Http.Rejection
import Rendezvous.Proofs.Metrics.Entries
import Rendezvous.Proofs.Service.Transcript

namespace Rendezvous.Http

open Metrics (Event Histogram Series Tally)
open Program

def IsMethod (method : String) : Prop :=
  method ≠ "" ∧ ∀ c ∈ method.toList, MediaType.isNameChar c

/-- How a request can be counted: with the status of its answer, whatever the program that gives it
is told on the way, or as one that took too long. -/
inductive Records (s : Service) (r : Request) : Event → Prop where
  | answered {past : List Exchange} {response : Response}
      (h : (route s r).Follows past (.done response)) :
      Records s r (.served r.method r.path response.status)
  | timedOut : Records s r (.served r.method r.path 408)

structure Recording where
  request : Request
  event : Event
  nanos : Nat

def tallied (log : List Recording) : Tally :=
  log.foldl (fun t x => t.measure x.event x.nanos) .empty

def endpoints : List Endpoint := [.meetings, .health, .metrics, .meeting, .satisfaction, .other]

def statuses : List Nat :=
  [200, 201, 204, 400, 401, 403, 404, 405, 408, 409, 413, 415, 422, 500, 503]

def statusLabels : List String := ["success", "timeout", "error"]

def durations (h : Histogram) (labels : List (String × String)) : List Series :=
  h.count labels :: (h.bounds.map fun b => h.bucket labels (Metrics.boundText b)) ++
    [h.bucket labels "+Inf"]

def requestSeries (method : String) (endpoint : Endpoint) : List Series :=
  let labels := [("method", method), ("endpoint", endpoint.label)]
  (statuses.map fun status =>
    ⟨"meeting_http_requests_total", labels ++ [("status_code", Numeral.Decimal.text status)]⟩) ++
  statusLabels.flatMap fun status => durations .request (labels ++ [("status", status)])

def seriesOf (methods : List String) : List Series :=
  methods.flatMap fun method => endpoints.flatMap (requestSeries method)

theorem mem_endpoints (e : Endpoint) : e ∈ endpoints := by
  cases e <;> decide

theorem statusLabel_mem (status : Nat) : Metrics.statusLabel status ∈ statusLabels := by
  unfold Metrics.statusLabel
  split
  · decide
  split <;> decide

theorem buckets_subset (h : Histogram) (labels : List (String × String)) (nanos : Nat) :
    h.buckets labels nanos ⊆ durations h labels := by
  intro x hx
  rcases List.mem_append.mp hx with hx | hx
  · obtain ⟨b, hb, rfl⟩ := List.mem_map.mp hx
    refine List.mem_append_left _ (List.mem_cons_of_mem _ (List.mem_map_of_mem ?_))
    exact List.mem_of_mem_filter hb
  · exact List.mem_append_right _ hx

theorem length_requestSeries (method : String) (e : Endpoint) :
    (requestSeries method e).length = 54 := by
  simp [requestSeries, statuses, statusLabels, durations, Histogram.request]

theorem length_seriesOf (methods : List String) :
    (seriesOf methods).length = 324 * methods.length := by
  have hmethod (method : String) : (endpoints.flatMap (requestSeries method)).length = 324 := by
    rw [List.length_flatMap]
    simp [length_requestSeries, endpoints]
  rw [seriesOf, List.length_flatMap]
  simp [hmethod, Nat.mul_comm]

theorem status_fault_mem (fault : Fault) : fault.status ∈ statuses := by
  cases fault <;> simp [Fault.status, statuses]

theorem status_refusal_mem (refusal : Refusal) : refusal.response.status ∈ statuses := by
  cases refusal with
  | body failure =>
    unfold Refusal.response
    dsimp only
    split <;> simp [Response.text, statuses]
  | _ => simp [Refusal.response, Response.text, statuses]

/-- That the answer that a program ends with, whatever it is told, has one of the statuses. -/
def Answers (p : Program Response) (past : List Exchange) : Prop :=
  p.Ensures (fun _ _ => True) (fun _ response => response.status ∈ statuses) past

theorem ensures_true {α : Type} (p : Program α) (past : List Exchange) :
    p.Ensures (fun _ _ => True) (fun _ _ => True) past := by
  induction p generalizing past with
  | done a => exact ensures_done.mpr trivial
  | ask q next ih => exact ensures_ask.mpr ⟨trivial, fun answer => ih answer _⟩

variable {s : Service} {r : Request} {past : List Exchange}

theorem answers_done {response : Response} (h : response.status ∈ statuses) :
    Answers (.done response) past :=
  ensures_done.mpr h

theorem answers_answer {α : Type} (a : Action α) {response : α → Response}
    (h : ∀ v, (response v).status ∈ statuses) : Answers (answer a response) past := by
  refine Ensures.bind ((ensures_true a.run past).mono fun past result _ => ?_)
  cases result with
  | ok v => exact answers_done (h v)
  | error fault => exact answers_done (status_fault_mem fault)

theorem answers_accept {α : Type} {result : Except Refusal α} {next : α → Program Response}
    (h : ∀ v, Answers (next v) past) : Answers (accept result next) past := by
  cases result with
  | ok v => exact h v
  | error refusal => exact answers_done (status_refusal_mem refusal)

theorem answers_respond (s : Service) (r : Request) (route : Route) :
    Answers (respond s r route) past := by
  have h200 : 200 ∈ statuses := by decide
  have h201 : 201 ∈ statuses := by decide
  have h204 : 204 ∈ statuses := by decide
  have h404 : 404 ∈ statuses := by decide
  cases route with
  | health => exact Ensures.bind ((ensures_true s.health past).mono fun _ _ _ => answers_done h200)
  | metrics => exact answers_done h200
  | meetings => exact answers_accept fun draft => answers_answer _ fun ticket => h201
  | meeting segment =>
    refine answers_accept fun token => ?_
    split
    · exact answers_answer _ fun _ => h204
    · refine answers_answer _ fun view? => ?_
      cases view? with
      | some view => exact h200
      | none => exact h404
  | satisfaction segment =>
    exact answers_accept fun token => answers_accept fun survey => answers_answer _ fun _ => h204

theorem answers_route (s : Service) (r : Request) : Answers (route s r) past := by
  unfold route
  split
  · exact answers_done (by decide : 404 ∈ statuses)
  split
  · exact answers_respond s r _
  · exact answers_done (by decide : 405 ∈ statuses)

theorem Records.status_mem {e : Event} (h : Records s r e) :
    ∃ status ∈ statuses, e = .served r.method r.path status := by
  cases h with
  | answered h => exact ⟨_, ensures_done.mp (h.ensures (answers_route s r)), rfl⟩
  | timedOut => exact ⟨408, by decide, rfl⟩

theorem Records.series_subset {e : Event} (h : Records s r e) (nanos : Nat) :
    e.series nanos ⊆ requestSeries r.method (Endpoint.ofPath r.path) := by
  obtain ⟨status, hstatus, rfl⟩ := h.status_mem
  have hdurations {x : Series}
      (hx : x ∈ durations .request (Metrics.servedLabels r.method r.path ++
        [("status", Metrics.statusLabel status)])) :
      x ∈ requestSeries r.method (Endpoint.ofPath r.path) :=
    List.mem_append_right _ (List.mem_flatMap.mpr ⟨_, statusLabel_mem status, hx⟩)
  intro x hx
  rcases List.mem_append.mp hx with hx | hx
  · obtain ⟨g, hg, rfl⟩ := List.mem_map.mp hx
    rcases List.mem_cons.mp hg with rfl | hg
    · exact hdurations (List.mem_append_left _ List.mem_cons_self)
    · obtain rfl := List.mem_singleton.mp hg
      exact List.mem_append_left _ (List.mem_map_of_mem hstatus)
  · exact hdurations (buckets_subset _ _ nanos hx)

theorem mem_seriesOf {methods : List String} {e : Event} {nanos : Nat} {x : Series}
    (hmethod : r.method ∈ methods) (h : Records s r e) (hx : x ∈ e.series nanos) :
    x ∈ seriesOf methods :=
  List.mem_flatMap.mpr ⟨r.method, hmethod,
    List.mem_flatMap.mpr ⟨_, mem_endpoints _, h.series_subset nanos hx⟩⟩

theorem get?_foldl_measure {log : List Recording} {t : Tally} {key : String}
    (h : (log.foldl (fun t x => t.measure x.event x.nanos) t).get? key ≠ none) :
    (∃ x ∈ log, ∃ series ∈ x.event.series x.nanos, key = series.text) ∨ t.get? key ≠ none := by
  induction log generalizing t with
  | nil => exact .inr h
  | cons x log ih =>
    rcases ih h with ⟨y, hy, hseries⟩ | h
    · exact .inl ⟨y, List.mem_cons_of_mem _ hy, hseries⟩
    · rcases Tally.get?_measure h with hseries | h
      · exact .inl ⟨x, List.mem_cons_self, hseries⟩
      · exact .inr h

/-- Only series of the methods of some requests have entries after them. -/
theorem get?_tallied {methods : List String} {log : List Recording} {key : String}
    (hlog : ∀ x ∈ log, x.request.method ∈ methods ∧ Records s x.request x.event)
    (h : (tallied log).get? key ≠ none) : ∃ series ∈ seriesOf methods, key = series.text := by
  rcases get?_foldl_measure h with ⟨x, hx, series, hseries, hkey⟩ | h
  · exact ⟨series, mem_seriesOf (hlog x hx).1 (hlog x hx).2 hseries, hkey⟩
  · exact absurd rfl h

theorem length_tallied_le {methods : List String} {log : List Recording}
    (hlog : ∀ x ∈ log, x.request.method ∈ methods ∧ Records s x.request x.event) :
    (tallied log).entries.length ≤ 324 * methods.length := by
  rw [← length_seriesOf, ← List.length_map Series.text]
  refine Dictionary.length_entries_le fun key hkey => ?_
  obtain ⟨series, hseries, rfl⟩ := get?_tallied hlog hkey
  exact List.mem_map_of_mem hseries

theorem exists_long_method (texts : List String) :
    ∃ method : String, IsMethod method ∧ 6 < method.length ∧
      ∀ text ∈ texts, text.length < method.length := by
  let longest := (texts.map String.length).max?.getD 0
  have hlongest : ∀ text ∈ texts, text.length ≤ longest := fun text htext =>
    List.le_max?_getD_of_mem (List.mem_map_of_mem htext)
  refine ⟨String.ofList (List.replicate (longest + 7) 'A'), ⟨by simp, ?_⟩, by simp, ?_⟩
  · intro c hc
    rw [String.toList_ofList] at hc
    rw [List.eq_of_mem_replicate hc]
    decide
  · intro text htext
    have := hlongest text htext
    simp only [String.length_ofList, List.length_replicate]
    omega

theorem length_le_of_mem_methods {route : Route} {method : String} (h : method ∈ route.methods) :
    method.length ≤ 6 := by
  have hall : ∀ method ∈ ["GET", "HEAD", "POST", "DELETE"], method.length ≤ 6 := by decide
  refine hall method ?_
  cases route <;> simp_all [Route.methods] <;> tauto

/-- A request with a method that no route takes is answered at once. -/
theorem exists_route_eq (s : Service) (h : 6 < r.method.length) :
    ∃ response, route s r = .done response := by
  unfold route
  split
  · exact ⟨_, rfl⟩
  split
  case isTrue hmethod =>
    have := length_le_of_mem_methods hmethod
    omega
  case isFalse => exact ⟨_, rfl⟩

theorem mem_labels_of_mem_requestSeries {method : String} {endpoint : Endpoint} {x : Series}
    (h : x ∈ requestSeries method endpoint) : ("method", method) ∈ x.labels := by
  rcases List.mem_append.mp h with h | h
  · obtain ⟨status, -, rfl⟩ := List.mem_map.mp h
    exact List.mem_cons_self
  · obtain ⟨status, -, h⟩ := List.mem_flatMap.mp h
    rcases List.mem_append.mp h with h | h
    · rcases List.mem_cons.mp h with rfl | h
      · exact List.mem_cons_self
      · obtain ⟨b, -, rfl⟩ := List.mem_map.mp h
        exact List.mem_cons_self
    · obtain rfl := List.mem_singleton.mp h
      exact List.mem_cons_self

/-- Whatever series are known, requests with some method are counted in none of them. -/
theorem exists_method_not_known (s : Service) (known : List Series) :
    ∃ method, IsMethod method ∧ ∀ target headers body e nanos,
      Records s ⟨method, target, headers, body⟩ e → ∀ x ∈ e.series nanos, x ∉ known := by
  obtain ⟨method, hmethod, -, hlong⟩ :=
    exists_long_method (known.flatMap fun x => x.labels.map Prod.snd)
  refine ⟨method, hmethod, fun target headers body e nanos he x hx hknown => ?_⟩
  have hlabel := mem_labels_of_mem_requestSeries (he.series_subset nanos hx)
  exact Nat.lt_irrefl _ (hlong method
    (List.mem_flatMap.mpr ⟨x, hknown, List.mem_map.mpr ⟨_, hlabel, rfl⟩⟩))

def served (s : Service) (d : Deployment) (requests : List Request) : Deployment :=
  requests.foldl (fun d r => (d.run (serve s r)).2) d

theorem exists_method_grows (s : Service) (d : Deployment) (target : String)
    (headers : List (String × String)) (body : List UInt8) :
    ∃ method, IsMethod method ∧
      d.tally.entries.length <
        (d.run (serve s ⟨method, target, headers, body⟩)).2.tally.entries.length := by
  obtain ⟨method, hmethod, hlength, hlong⟩ := exists_long_method (d.tally.entries.map (·.1))
  refine ⟨method, hmethod, ?_⟩
  generalize hr : (⟨method, target, headers, body⟩ : Request) = r
  obtain rfl : method = r.method := by rw [← hr]
  obtain ⟨response, hroute⟩ := exists_route_eq s hlength
  have hrun : d.run (route s r) = (response, d) := by
    rw [hroute]
    rfl
  rw [run_serve hrun]
  let event : Event := .served r.method r.path response.status
  let total : Series := ⟨"meeting_http_requests_total",
    Metrics.servedLabels r.method r.path ++ [("status_code", Numeral.Decimal.text response.status)]⟩
  have hgrowth : (total, 1) ∈ event.growth := List.mem_cons_of_mem _ List.mem_cons_self
  have hlabel : ("method", r.method) ∈ total.labels := List.mem_cons_self
  have htext : r.method.length ≤ total.text.length := Series.length_le_text hlabel
  have hmissing : d.tally.get? total.text = none := by
    by_contra hfound
    have := hlong _ (Dictionary.get?_ne_none_iff.mp hfound)
    omega
  have hfound : (d.tally.count event).get? total.text ≠ none :=
    Tally.get?_growAll_of_mem hgrowth Nat.one_ne_zero
  exact Dictionary.length_entries_lt (fun _ => Tally.growAll_kept) hmissing hfound

/-- However many requests are served, each can make the series more. -/
theorem exists_methods_grow (s : Service) (target : String) (headers : List (String × String))
    (body : List UInt8) (n : Nat) (d : Deployment) :
    ∃ methods : List String, methods.length = n ∧ (∀ method ∈ methods, IsMethod method) ∧
      d.tally.entries.length + n ≤ (served s d (methods.map fun method =>
        ⟨method, target, headers, body⟩)).tally.entries.length := by
  induction n generalizing d with
  | zero => exact ⟨[], rfl, by simp, Nat.le_refl _⟩
  | succ n ih =>
    obtain ⟨method, hmethod, hgrows⟩ := exists_method_grows s d target headers body
    obtain ⟨methods, hlength, hmethods, hsize⟩ :=
      ih (d.run (serve s ⟨method, target, headers, body⟩)).2
    refine ⟨method :: methods, by rw [List.length_cons, hlength],
      List.forall_mem_cons.mpr ⟨hmethod, hmethods⟩, ?_⟩
    rw [List.map_cons, served, List.foldl_cons]
    rw [served] at hsize
    omega

theorem follows_transcript {α : Type} {p₀ p : Program α} {past : List Exchange}
    (h : p₀.Follows past p) (d : Deployment) :
    p₀.Follows (d.transcript past p) (.done (d.run p).1) := by
  induction p generalizing d past with
  | done a => exact h
  | ask q next ih => exact ih _ (.answer h _) _

/-- Serving a request is answering it and counting it. -/
theorem exists_records (s : Service) (r : Request) (d : Deployment) :
    ∃ e, Records s r e ∧ (d.run (serve s r)).2 = (d.run (route s r)).2.count e := by
  have hroute : d.run (route s r) = ((d.run (route s r)).1, (d.run (route s r)).2) := rfl
  exact ⟨_, .answered (follows_transcript .start d), by rw [run_serve hroute]⟩

/-- How many series requests are counted in is bounded by how many methods they have, and by nothing
else. -/
theorem series_bounded_by_methods (s : Service) :
    (∀ (r : Request) (d : Deployment), ∃ e, Records s r e ∧
      (d.run (serve s r)).2 = (d.run (route s r)).2.count e) ∧
    (∀ (methods : List String) (log : List Recording),
      (∀ x ∈ log, x.request.method ∈ methods ∧ Records s x.request x.event) →
      (∀ x ∈ log, ∀ series ∈ x.event.series x.nanos, series ∈ seriesOf methods) ∧
      (tallied log).entries.length ≤ 324 * methods.length) ∧
    (∀ known : List Series, ∃ method, IsMethod method ∧ ∀ target headers body e nanos,
      Records s ⟨method, target, headers, body⟩ e → ∀ x ∈ e.series nanos, x ∉ known) ∧
    (∀ target headers body n d, ∃ methods : List String, methods.length = n ∧
      (∀ method ∈ methods, IsMethod method) ∧
      d.tally.entries.length + n ≤ (served s d (methods.map fun method =>
        ⟨method, target, headers, body⟩)).tally.entries.length) :=
  ⟨exists_records s,
    fun _ _ hlog =>
      ⟨fun x hx _ => mem_seriesOf (hlog x hx).1 (hlog x hx).2, length_tallied_le hlog⟩,
    exists_method_not_known s, exists_methods_grow s⟩

end Rendezvous.Http
