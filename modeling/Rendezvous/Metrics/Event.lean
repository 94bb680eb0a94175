import Rendezvous.Call.Outcome
import Rendezvous.Dictionary
import Rendezvous.Http.Endpoint
import Rendezvous.Metrics.Series

namespace Rendezvous.Metrics

/-- Why a token was rejected; callers cannot tell the two apart. -/
inductive Rejection where
  | malformed
  | invalid
deriving DecidableEq, Repr

def Rejection.label : Rejection → String
  | malformed => "malformed"
  | invalid => "invalid"

inductive Submission where
  | success
  | notAllowed
  | error
deriving DecidableEq, Repr

def Submission.label : Submission → String
  | success => "success"
  | notAllowed => "not_allowed"
  | error => "error"

inductive Event where
  | meetingCreated
  | tokenRejected (reason : Rejection)
  | surveyAnswered (status : Submission)
  | callEnded (outcome : Call.Outcome)
  | swept (count : Nat)
  | stored (backend operation : String) (success : Bool)
  | served (method path : String) (status : Nat)
deriving DecidableEq, Repr

def statusLabel (status : Nat) : String :=
  if 200 ≤ status ∧ status ≤ 299 then "success"
  else if status = 408 ∨ status = 504 then "timeout"
  else "error"

def storedLabels (backend operation : String) (success : Bool) : List (String × String) :=
  [("backend", backend), ("operation", operation),
    ("status", if success then "success" else "error")]

def servedLabels (method path : String) : List (String × String) :=
  [("method", method), ("endpoint", (Http.Endpoint.ofPath path).label)]

def Event.growth : Event → List (Series × Nat)
  | meetingCreated => [(⟨"meeting_created_total", []⟩, 1)]
  | tokenRejected reason =>
    [(⟨"meeting_token_rejections_total", [("reason", reason.label)]⟩, 1)]
  | surveyAnswered status => [(⟨"meeting_satisfaction_total", [("status", status.label)]⟩, 1)]
  | callEnded outcome => [(⟨"meeting_call_events_total", [("outcome", outcome.label)]⟩, 1)]
  | swept count => [(⟨"meeting_expired_swept_total", []⟩, count)]
  | stored backend operation success =>
    [(Histogram.storeOperation.count (storedLabels backend operation success), 1)]
  | served method path status =>
    let labels := servedLabels method path
    [(Histogram.request.count (labels ++ [("status", statusLabel status)]), 1),
      (⟨"meeting_http_requests_total",
        labels ++ [("status_code", Numeral.Decimal.text status)]⟩, 1)]

/-- The buckets that grow by one for an event that took some nanoseconds. -/
def Event.buckets (nanos : Nat) : Event → List Series
  | stored backend operation success =>
    Histogram.storeOperation.buckets (storedLabels backend operation success) nanos
  | served method path status =>
    Histogram.request.buckets (servedLabels method path ++ [("status", statusLabel status)]) nanos
  | _ => []

abbrev Tally := Dictionary Nat

def Tally.of (t : Tally) (s : Series) : Nat := (t.get? s.text).getD 0

/-- Lets a series grow. One that grows by nothing does not appear. -/
def Tally.grow (t : Tally) (s : Series) (n : Nat) : Tally :=
  if n = 0 then t else t.insert s.text (t.of s + n)

theorem Tally.of_grow (t : Tally) (s r : Series) (n : Nat) :
    (t.grow s n).of r = if r.text = s.text then t.of s + n else t.of r := by
  unfold Tally.grow
  split
  · next h => split <;> simp_all [Tally.of]
  · rw [Tally.of, Dictionary.get?_insert]
    split <;> rfl

def Tally.count (t : Tally) (e : Event) : Tally :=
  e.growth.foldl (fun t g => t.grow g.1 g.2) t

def Tally.measure (t : Tally) (e : Event) (nanos : Nat) : Tally :=
  (e.buckets nanos).foldl (fun t s => t.grow s 1) (t.count e)

end Rendezvous.Metrics
