import Rendezvous.Proofs.Metrics.Tally

namespace Rendezvous.Metrics

/-- The series that count no operations of the store and no requests. -/
inductive Counter where
  | created
  | rejected (reason : Rejection)
  | ended (outcome : Call.Outcome)
  | answered (status : Submission)
  | swept
deriving DecidableEq

namespace Counter

def series : Counter → Series
  | created => ⟨"meeting_created_total", []⟩
  | rejected reason => ⟨"meeting_token_rejections_total", [("reason", reason.label)]⟩
  | ended outcome => ⟨"meeting_call_events_total", [("outcome", outcome.label)]⟩
  | answered status => ⟨"meeting_satisfaction_total", [("status", status.label)]⟩
  | swept => ⟨"meeting_expired_swept_total", []⟩

def names : List String :=
  ["meeting_created_total", "meeting_token_rejections_total", "meeting_call_events_total",
    "meeting_satisfaction_total", "meeting_expired_swept_total"]

/-- How many characters it takes to tell the names of series apart. -/
def distinctive : Nat := 10

theorem name_mem (c : Counter) : c.series.name ∈ names := by
  cases c <;> simp [series, names]

theorem length_of_mem : ∀ name ∈ names, distinctive ≤ name.toList.length := by decide

theorem eq_of_start : ∀ name ∈ names, ∀ name' ∈ names,
    name.toList.take distinctive = name'.toList.take distinctive → name = name' := by decide

theorem text_ne {c : Counter} {r : Series} (name : String) (hr : r.name = name)
    (hn : distinctive ≤ name.toList.length)
    (h : ∀ name' ∈ names, name.toList.take distinctive ≠ name'.toList.take distinctive) :
    r.text ≠ c.series.text :=
  Series.text_ne name c.series.name distinctive hr rfl hn (length_of_mem _ c.name_mem)
    (h _ c.name_mem)

theorem series_injective {c c' : Counter} (h : c.series.text = c'.series.text) : c = c' := by
  have hname : c.series.name = c'.series.name := by
    refine Decidable.byContradiction fun hne => ?_
    exact Series.text_ne c.series.name c'.series.name distinctive rfl rfl
      (length_of_mem _ c.name_mem) (length_of_mem _ c'.name_mem)
      (fun hstart => hne (eq_of_start _ c.name_mem _ c'.name_mem hstart)) h
  cases c with
  | created => cases c' <;> simp_all [series]
  | swept => cases c' <;> simp_all [series]
  | rejected reason =>
    cases c' with
    | rejected reason' => revert h; cases reason <;> cases reason' <;> decide
    | _ => simp [series] at hname
  | ended outcome =>
    cases c' with
    | ended outcome' => revert h; cases outcome <;> cases outcome' <;> decide
    | _ => simp [series] at hname
  | answered status =>
    cases c' with
    | answered status' => revert h; cases status <;> cases status' <;> decide
    | _ => simp [series] at hname

end Counter

def Event.counter? : Event → Option (Counter × Nat)
  | meetingCreated => some (.created, 1)
  | tokenRejected reason => some (.rejected reason, 1)
  | surveyAnswered status => some (.answered status, 1)
  | callEnded outcome => some (.ended outcome, 1)
  | swept count => some (.swept, count)
  | stored .. | served .. => none

def Event.weight (c : Counter) (e : Event) : Nat :=
  match e.counter? with
  | some (c', n) => if c' = c then n else 0
  | none => 0

theorem Event.growth_of_counter? {e : Event} {c : Counter} {n : Nat}
    (h : e.counter? = some (c, n)) : e.growth = [(c.series, n)] := by
  cases e <;> cases h <;> rfl

theorem Event.grown_of_counter?_eq_none {e : Event} (h : e.counter? = none) (c : Counter) :
    grown e.growth c.series = 0 := by
  apply grown_eq_zero
  cases e with
  | stored backend operation success =>
    simp only [Event.growth, List.forall_mem_singleton]
    exact Counter.text_ne "meeting_store_operation_duration_seconds_count" rfl (by decide)
      (by decide)
  | served method path status =>
    simp only [Event.growth, List.forall_mem_cons, List.not_mem_nil, false_imp_iff, implies_true,
      and_true]
    exact ⟨Counter.text_ne "meeting_http_request_duration_seconds_count" rfl (by decide)
        (by decide),
      Counter.text_ne "meeting_http_requests_total" rfl (by decide) (by decide)⟩
  | _ => cases h

theorem Tally.of_count_counter (t : Tally) (e : Event) (c : Counter) :
    (t.count e).of c.series = t.of c.series + e.weight c := by
  rw [Tally.of_count]
  refine congrArg (t.of c.series + ·) ?_
  unfold Event.weight
  cases h : e.counter? with
  | none => exact Event.grown_of_counter?_eq_none h c
  | some g =>
    obtain ⟨c', n⟩ := g
    rw [Event.growth_of_counter? h]
    dsimp only [grown]
    by_cases hc : c' = c
    · rw [if_pos (congrArg (·.series.text) hc), if_pos hc, Nat.add_zero]
    · rw [if_neg fun htext => hc (Counter.series_injective htext), if_neg hc]

end Rendezvous.Metrics
