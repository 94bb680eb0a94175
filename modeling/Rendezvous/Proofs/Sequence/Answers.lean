import Rendezvous.Proofs.Interleaving.Lifecycle
import Rendezvous.Proofs.Sequence.Course

namespace Rendezvous

open Store

namespace Moment

def pushes (x : Moment) : List (Push × Except Fault Unit) :=
  x.after.engine.calls.drop x.before.engine.calls.length

def submitted? (s : Service) (x : Moment) : Option String :=
  match x.happening with
  | .command (.submit token _) => (s.cipher.redeem token).toOption
  | _ => none

def isTaken (x : Moment) : Bool :=
  match x.reply with
  | .submitted (.ok ()) => true
  | _ => false

def accepted (x : Moment) : List Push :=
  x.pushes.filterMap fun
    | (push, .ok ()) => some push
    | (_, .error _) => none

variable {s : Service} {x : Moment}

theorem pushes_eq_nil (h : x.after.engine = x.before.engine) : x.pushes = [] := by
  rw [pushes, h]
  exact List.drop_length ..

theorem accepted_eq_nil (h : x.after.engine = x.before.engine) : x.accepted = [] := by
  rw [accepted, pushes_eq_nil h]
  rfl

/-- A call to a call engine that is there is the one push of its moment. -/
theorem pushes_of_call {answers : Nat → Except Fault Unit} {calls : List (Push × Except Fault Unit)}
    {push : Push} {r : Except Fault Unit} (h : x.before.engine = .present answers calls)
    (pushed : x.before.engine.call push = (r, x.after.engine)) : x.pushes = [(push, r)] ∧
      x.after.engine = .present answers (calls ++ [(push, r)]) ∧ r = answers calls.length := by
  rw [h] at pushed
  obtain ⟨rfl, hengine⟩ := Prod.mk.inj pushed
  refine ⟨?_, hengine.symm, rfl⟩
  rw [pushes, h, ← hengine]
  exact List.drop_left ..

theorem isTaken_eq_false (h : x.reply ≠ .submitted (.ok ())) : x.isTaken = false := by
  unfold isTaken
  split
  · next hr => exact absurd hr h
  · rfl

end Moment

/-- The submissions for a meeting since it was created last. -/
def submissions (s : Service) (id : String) (ms : List Moment) : List Moment :=
  (ms.takeWhile fun x => x.created? s != some id).filter fun x => x.submitted? s == some id

section

variable {s : Service} {id : String} {x : Moment} {ms : List Moment}

theorem submissions_of_created (h : x.created? s = some id) : submissions s id (x :: ms) = [] := by
  simp [submissions, h]

theorem submissions_of_submitted (hc : x.created? s ≠ some id) (h : x.submitted? s = some id) :
    submissions s id (x :: ms) = x :: submissions s id ms := by
  simp [submissions, hc, h]

theorem submissions_of_ne (hc : x.created? s ≠ some id) (h : x.submitted? s ≠ some id) :
    submissions s id (x :: ms) = submissions s id ms := by
  simp [submissions, hc, h]

end

/-- How the submissions for a meeting agree with the answer that is noted in it. -/
inductive Account (xs : List Moment) (m : Meeting) : Prop where
  | unanswered (noted : m.satisfaction = none) (taken : xs.filter Moment.isTaken = [])
      (accepted : xs.flatMap Moment.accepted = [])
  | answered {x : Moment} {token answer callId value : String} (noted : m.satisfaction = some value)
      (called : m.callId = some callId) (taken : xs.filter Moment.isTaken = [x])
      (submission : x.happening = .command (.submit token answer))
      (tidy : Meeting.tidyAnswer answer = .ok value)
      (accepted : xs.flatMap Moment.accepted = [Service.push m callId value])

section

variable {s : Service} {x : Moment} {ms xs : List Moment} {m : Meeting}

theorem Account.cons (h : Account xs m) (taken : x.isTaken = false) (accepted : x.accepted = []) :
    Account (x :: xs) m := by
  cases h with
  | unanswered noted ht ha => exact .unanswered noted (by simp [taken, ht]) (by simp [accepted, ha])
  | answered noted called ht submission tidy ha =>
    exact .answered noted called (by simp [taken, ht]) submission tidy (by simp [accepted, ha])

theorem Account.keep (h : Account (submissions s m.id ms) m) (hc : x.created? s ≠ some m.id)
    (idle : x.submitted? s = some m.id → x.isTaken = false ∧ x.accepted = []) :
    Account (submissions s m.id (x :: ms)) m := by
  by_cases hs : x.submitted? s = some m.id
  · rw [submissions_of_submitted hc hs]
    exact h.cons (idle hs).1 (idle hs).2
  · rw [submissions_of_ne hc hs]
    exact h

theorem Account.call (h : Account xs m) (uncalled : m.callId = none) (callId : String)
    (bridged : Bool) : Account xs { m with callId := some callId, bridged } := by
  cases h with
  | unanswered noted taken accepted => exact .unanswered noted taken accepted
  | answered noted called => cases uncalled.symm.trans called

theorem Account.note (h : Account xs m) {token answer callId value : String}
    (opened : Service.surveyedCall m = .ok callId) (taken : x.isTaken = true)
    (submission : x.happening = .command (.submit token answer))
    (tidy : Meeting.tidyAnswer answer = .ok value)
    (accepted : x.accepted = [Service.push m callId value]) :
    Account (x :: xs) { m with satisfaction := some value } := by
  obtain ⟨called, _, unanswered⟩ := Service.of_surveyedCall opened
  cases h with
  | unanswered _ ht ha =>
    have htaken : (x :: xs).filter Moment.isTaken = [x] := by simp [taken, ht]
    have haccepted : (x :: xs).flatMap Moment.accepted = [Service.push m callId value] := by
      simp [accepted, ha]
    exact .answered rfl called htaken submission tidy haccepted
  | answered noted => cases unanswered.symm.trans noted

end

/-- That a push was made in a moment for a meeting, whose survey was open then. -/
structure Moment.Tells (s : Service) (answers : Nat → Except Fault Unit) (x : Moment) (m : Meeting)
    (callId value : String) (r : Except Fault Unit) : Prop where
  pushes : x.pushes = [(⟨m.domainId, callId, .single "meeting_satisfaction" value⟩, r)]
  submitted : x.submitted? s = some m.id
  reply : x.reply = .submitted r
  shown : Service.Shows x.before m.id m
  called : m.callId = some callId
  bridged : m.bridged
  unanswered : m.satisfaction = none
  kept : ∀ fault, r = .error fault → x.after.memory.meetings.Perm x.before.memory.meetings
  /-- What was refused can be submitted again, and is taken if the call engine accepts it. -/
  again : ∀ fault, r = .error fault → ∃ r', r' = answers x.after.engine.calls.length ∧
    (x.happening.moment s x.after).reply = .submitted r' ∧
    (x.happening.moment s x.after).pushes =
      [(⟨m.domainId, callId, .single "meeting_satisfaction" value⟩, r')]

section

variable {s : Service} {d : Deployment} {token answer id callId value : String} {m : Meeting}

/-- A submission for an open survey goes to the call engine, which decides. -/
theorem submitted_of_shows (healthy : d.Healthy) (tidy : Meeting.tidyAnswer answer = .ok value)
    (known : s.cipher.redeem token = .ok id) (shown : Service.Shows d id m)
    (opened : Service.surveyedCall m = .ok callId) :
    (d.run (s.submit token answer).run).1 = (d.engine.call (Service.push m callId value)).1 ∧
      (d.run (s.submit token answer).run).2.engine =
        (d.engine.call (Service.push m callId value)).2 := by
  have hresult := s.submitted healthy token answer
  generalize d.run (s.submit token answer).run = x at hresult
  cases hresult with
  | untidy refused => cases tidy.symm.trans refused
  | rejected tally unknown => exact absurd known (unknown id)
  | missed known' read =>
    cases known.symm.trans known'
    exact absurd read shown.not_missed
  | notAllowed tally known' shown' closed =>
    cases known.symm.trans known'
    cases shown.held.symm.trans shown'.held
    cases opened.symm.trans closed
  | refused tally tidy' known' shown' opened' pushed =>
    cases tidy.symm.trans tidy'
    cases known.symm.trans known'
    cases shown.held.symm.trans shown'.held
    cases opened.symm.trans opened'
    rw [pushed]
    exact ⟨rfl, rfl⟩
  | noted tally tidy' known' shown' opened' pushed =>
    cases tidy.symm.trans tidy'
    cases known.symm.trans known'
    cases shown.held.symm.trans shown'.held
    cases opened.symm.trans opened'
    rw [pushed]
    exact ⟨rfl, rfl⟩

end

/-- What holds in each course from the start of a service: how each stored meeting was answered, and
which pushes have been made. -/
structure Reconciled (s : Service) (answers : Nat → Except Fault Unit) (ms : List Moment)
    (d : Deployment) : Prop where
  accounts : ∀ m ∈ d.memory.meetings,
    (∃ x ∈ ms, x.created? s = some m.id) ∧ Account (submissions s m.id ms) m
  engine : d.engine = .present answers (ms.reverse.flatMap Moment.pushes)
  pushes : ∀ x ∈ ms, x.pushes = [] ∨ ∃ m callId value r, x.Tells s answers m callId value r

section

variable {s : Service} {answers : Nat → Except Fault Unit} {ms : List Moment} {d d' : Deployment}
  {x : Happening} {r : Reply}

theorem Reconciled.silent (h : Reconciled s answers ms d) (engine : d'.engine = d.engine)
    (accounts : ∀ m ∈ d'.memory.meetings,
      (∃ y ∈ ⟨x, d, r, d'⟩ :: ms, y.created? s = some m.id) ∧
        Account (submissions s m.id (⟨x, d, r, d'⟩ :: ms)) m) :
    Reconciled s answers (⟨x, d, r, d'⟩ :: ms) d' where
  accounts := accounts
  engine := by
    have hnone : (⟨x, d, r, d'⟩ : Moment).pushes = [] := Moment.pushes_eq_nil engine
    rw [engine, h.engine]
    simp [hnone]
  pushes := by
    rw [List.forall_mem_cons]
    exact ⟨.inl (Moment.pushes_eq_nil engine), h.pushes⟩

theorem Reconciled.keep (h : Reconciled s answers ms d) {y : Moment} {m : Meeting}
    (hm : m ∈ d.memory.meetings) (hc : y.created? s ≠ some m.id)
    (idle : y.submitted? s = some m.id → y.isTaken = false ∧ y.accepted = []) :
    (∃ y' ∈ y :: ms, y'.created? s = some m.id) ∧ Account (submissions s m.id (y :: ms)) m := by
  obtain ⟨⟨y', hy', hcreated⟩, account⟩ := h.accounts m hm
  exact ⟨⟨y', List.mem_cons_of_mem _ hy', hcreated⟩, account.keep hc idle⟩

theorem befall_submit (s : Service) (d : Deployment) (token answer : String) :
    Happening.befall s d (.command (.submit token answer)) =
      (.submitted (d.run (s.submit token answer).run).1, (d.run (s.submit token answer).run).2) :=
  tell_eq ..

theorem Reconciled.told (h : Reconciled s answers ms d) {token answer id callId value : String}
    {r : Except Fault Unit} {m : Meeting} (d' : Deployment)
    (known : s.cipher.redeem token = .ok id) (shown : Service.Shows d id m)
    (opened : Service.surveyedCall m = .ok callId)
    (pushed : d.engine.call (Service.push m callId value) = (r, d'.engine))
    (kept : ∀ fault, r = .error fault → d'.memory.meetings.Perm d.memory.meetings)
    (again : ∀ fault, r = .error fault → d'.Healthy ∧ Service.Shows d' id m)
    (tidy : Meeting.tidyAnswer answer = .ok value) :
    (⟨.command (.submit token answer), d, .submitted r, d'⟩ : Moment).Tells s answers m callId value
      r ∧ d'.engine = .present answers ((⟨.command (.submit token answer), d, .submitted r, d'⟩ ::
        ms).reverse.flatMap Moment.pushes) := by
  obtain ⟨called, bridged, unanswered⟩ := Service.of_surveyedCall opened
  obtain ⟨_, rfl⟩ := Memory.find?_mem shown.held
  let y : Moment := ⟨.command (.submit token answer), d, .submitted r, d'⟩
  obtain ⟨hpushes, hengine, _⟩ := y.pushes_of_call h.engine pushed
  refine ⟨⟨hpushes, by simp [Moment.submitted?, known, Except.toOption], rfl, shown, called,
    bridged, unanswered, kept, ?_⟩, ?_⟩
  case refine_2 =>
    rw [List.reverse_cons, List.flatMap_append, List.flatMap_singleton, hpushes]
    exact hengine
  intro fault hr
  obtain ⟨healthy, shown'⟩ := again fault hr
  obtain ⟨hreply, hcall⟩ := submitted_of_shows healthy tidy known shown' opened
  let y' : Moment := ⟨.command (.submit token answer), d',
    .submitted (d'.run (s.submit token answer).run).1, (d'.run (s.submit token answer).run).2⟩
  have hmoment : y.happening.moment s d' = y' := by
    unfold Happening.moment
    rw [befall_submit]
  have hcalled : y'.before.engine.call (Service.push m callId value) =
      ((d'.run (s.submit token answer).run).1, y'.after.engine) := by
    rw [hreply, hcall]
  obtain ⟨hpushes', _, hanswer⟩ := y'.pushes_of_call hengine hcalled
  rw [hmoment]
  refine ⟨_, ?_, rfl, hpushes'⟩
  rw [hanswer, hengine]
  rfl

theorem Reconciled.next (h : Reconciled s answers ms d) (healthy : d.Healthy) (hk : d.memory.Keyed)
    (x : Happening) : Reconciled s answers (x.moment s d :: ms) (x.befall s d).2 := by
  have heffect := effect (s := s) healthy x
  unfold Happening.moment
  generalize hbefall : x.befall s d = z at heffect
  cases heffect with
  | @none _ r d' meetings engine uncreated unanswered =>
    have hc := created?_eq_none (s := s) (x := ⟨x, d, r, d'⟩) uncreated
    exact h.silent engine fun m hm => h.keep (meetings hm) (by simp [hc]) fun _ =>
      ⟨Moment.isTaken_eq_false unanswered, Moment.accepted_eq_nil engine⟩
  | @created draft nonce m₀ d' meetings engine unanswered =>
    have hc := created?_eq_some (s := s) (x := ⟨.command (.create draft), d,
      .created (.ok ⟨s.cipher.issue nonce m₀.id, m₀.url⟩), d'⟩) rfl
    refine h.silent engine fun m hm => ?_
    rcases meetings m hm with rfl | ⟨hm, hne⟩
    · refine ⟨⟨_, List.mem_cons_self, hc⟩, ?_⟩
      rw [submissions_of_created hc]
      exact .unanswered unanswered rfl rfl
    · refine h.keep hm ?_ fun hs => ?_
      · rw [hc]
        exact fun heq => hne (Option.some.inj heq).symm
      · exact absurd hs (Option.some_ne_none m.id).symm
  | @called _ r d' m₀ callId bridged held uncalled meetings engine uncreated unanswered =>
    have hc := created?_eq_none (s := s) (x := ⟨x, d, r, d'⟩) uncreated
    have hkeep {m : Meeting} (hm : m ∈ d.memory.meetings) :=
      h.keep (y := ⟨x, d, r, d'⟩) hm (by simp [hc]) fun _ =>
        ⟨Moment.isTaken_eq_false unanswered, Moment.accepted_eq_nil engine⟩
    refine h.silent engine fun m hm => ?_
    rcases meetings m hm with rfl | ⟨hm, _⟩
    · obtain ⟨hcreated, account⟩ := hkeep held
      exact ⟨hcreated, account.call uncalled callId bridged⟩
    · exact hkeep hm
  | @refused token answer id callId value m₀ fault engine tally tidy known shown opened pushed =>
    obtain ⟨tells, hengine⟩ := h.told
      { d with memory := d.memory.promote m₀, engine, tally } known shown opened pushed
      (fun _ _ => hk.perm_promote shown.held)
      (fun _ _ => ⟨healthy, Memory.find?_promote_self shown.held, shown.fresh, shown.visible⟩) tidy
    refine ⟨fun m hm => ?_, hengine, List.forall_mem_cons.mpr ⟨.inr ⟨_, _, _, _, tells⟩, h.pushes⟩⟩
    refine h.keep (promote_subset shown.held hm) (Option.some_ne_none m.id).symm fun _ => ⟨rfl, ?_⟩
    rw [Moment.accepted, tells.pushes]
    rfl
  | @noted token answer id callId value m₀ engine tally tidy known shown opened pushed =>
    have hok (fault : Fault) : (.ok () : Except Fault Unit) ≠ .error fault := by simp
    obtain ⟨tells, hengine⟩ := h.told { d with
        memory := d.memory.promote { m₀ with satisfaction := some value }, engine, tally }
      known shown opened pushed (fun fault hr => absurd hr (hok fault))
      (fun fault hr => absurd hr (hok fault)) tidy
    refine ⟨fun m hm => ?_, hengine, List.forall_mem_cons.mpr ⟨.inr ⟨_, _, _, _, tells⟩, h.pushes⟩⟩
    rcases Memory.mem_promote.mp hm with rfl | ⟨hm, hne⟩
    · -- the survey was open, so nothing has been taken for this meeting before
      obtain ⟨⟨y, hy, hcreated⟩, account⟩ := h.accounts m₀ (Memory.find?_mem shown.held).1
      refine ⟨⟨y, List.mem_cons_of_mem _ hy, hcreated⟩, ?_⟩
      rw [submissions_of_submitted (by simp [Moment.created?]) tells.submitted]
      refine account.note opened rfl rfl tidy ?_
      rw [Moment.accepted, tells.pushes]
      rfl
    · refine h.keep hm (Option.some_ne_none m.id).symm fun hs => ?_
      exact absurd (Option.some.inj (hs.symm.trans tells.submitted)) hne

theorem Course.reconciled {d₀ : Deployment} (h : Course s d₀ ms d) (healthy : d₀.Healthy)
    (empty : d₀.memory.meetings = []) (engine : d₀.engine = .present answers []) :
    Reconciled s answers ms d := by
  have hk : d₀.memory.Keyed := by
    unfold Memory.Keyed
    rw [empty]
    exact List.nodup_nil
  induction h with
  | start => exact ⟨by simp [empty], engine, by simp⟩
  | next course x ih => exact ih.next (course.healthy healthy) (course.keyed hk) x

end

/-- In each course from the start of a service, for each stored meeting: it was created, and since
then as many pushes for it were accepted as answers were taken, which is one if an answer is noted
in it and none if not; the push carried what is noted, which is the submitted answer in the form
that counts. Pushes are made for meetings with open surveys only, and one that is refused changes
nothing and can be made again. -/
theorem answers_agree (s : Service) {now : Int64} {capacity : Nat} {chat : Collaborator ChatLink}
    {answers : Nat → Except Fault Unit} {entropy : Entropy} {ms : List Moment} {d : Deployment}
    (course : Course s (.start now capacity chat (.present answers []) entropy) ms d) :
    (∀ m ∈ d.memory.meetings,
      (∃ x ∈ ms, x.created? s = some m.id) ∧
      ((submissions s m.id ms).flatMap Moment.accepted).length =
        ((submissions s m.id ms).filter Moment.isTaken).length ∧
      ((submissions s m.id ms).filter Moment.isTaken).length =
        (if m.satisfaction.isSome then 1 else 0) ∧
      ∀ value, m.satisfaction = some value → ∃ x token answer callId,
        (submissions s m.id ms).filter Moment.isTaken = [x] ∧
        x.happening = .command (.submit token answer) ∧
        value = Text.Blank.trim answer ∧ value ≠ "" ∧ value.length ≤ 64 ∧
        m.callId = some callId ∧
        (submissions s m.id ms).flatMap Moment.accepted =
          [⟨m.domainId, callId, .single "meeting_satisfaction" value⟩]) ∧
    d.engine.calls = ms.reverse.flatMap Moment.pushes ∧
    ∀ x ∈ ms, x.pushes = [] ∨ ∃ m callId value r, x.Tells s answers m callId value r := by
  obtain ⟨accounts, engine, pushes⟩ := course.reconciled (fun _ => rfl) rfl rfl
  refine ⟨fun m hm => ?_, by rw [engine]; rfl, pushes⟩
  obtain ⟨hcreated, account⟩ := accounts m hm
  refine ⟨hcreated, ?_⟩
  cases account with
  | unanswered noted taken accepted =>
    rw [noted, taken, accepted]
    exact ⟨rfl, rfl, nofun⟩
  | @answered x token answer callId value noted called taken submission tidy accepted =>
    rw [noted, taken, accepted]
    refine ⟨rfl, rfl, ?_⟩
    rintro _ ⟨⟩
    obtain ⟨htrim, hne, hlength⟩ := Meeting.of_tidyAnswer tidy
    exact ⟨x, token, answer, callId, rfl, submission, htrim, hne, hlength, called, rfl⟩

namespace Happening.Sample

open System.Sample

def answers : Nat → Except Fault Unit
  | 0 => .error (.unavailable "connection refused")
  | _ => .ok ()

def state (meetings : List Meeting) (calls : List (Push × Except Fault Unit)) (entropy : Entropy)
    (tally : Metrics.Tally) : Deployment :=
  { Deployment.start 0 1 .accepting (.present answers calls) entropy with
    memory := ⟨1, meetings, .empty⟩, tally }

def entropy (draws : Nat) : Entropy := ⟨fun _ n => some (Vector.replicate n 0), draws⟩

def answered (s : Service) : Meeting := { called s with satisfaction := some "good" }

def push (s : Service) : Push := Service.push (called s) "c" "good"

section

variable (s : Service) (tally : Metrics.Tally)

theorem create_state : ∃ tally',
    ((command (.create draft)).befall s (state [] [] (entropy 0) tally)).2 =
      state [meeting s 0] [] (entropy 2) tally' := ⟨_, rfl⟩

theorem attach_state : ∃ tally', ((command (.attachCall id "c" true)).befall s
    (state [meeting s 0] [] (entropy 2) tally)).2 =
      state [called s] [] (entropy 2) tally' := by
  simp only [befall, Platform.obey]
  unfold Service.attachCall
  rw [resolve_id]
  exact ⟨_, rfl⟩

theorem tidyAnswer_spaced : Meeting.tidyAnswer " good " = .ok "good" := by decide +kernel

theorem submit_state :
    (∃ tally', ((command (.submit (token s) " good ")).befall s
      (state [called s] [] (entropy 2) tally)).2 =
        state [called s] [(push s, answers 0)] (entropy 2) tally') ∧
    ∃ tally', ((command (.submit (token s) " good ")).befall s
      (state [called s] [(push s, answers 0)] (entropy 2) tally)).2 =
        state [answered s] [(push s, answers 0), (push s, answers 1)] (entropy 2) tally' := by
  simp only [befall, Platform.obey]
  unfold Service.submit Service.redeem
  rw [redeem_token, tidyAnswer_spaced]
  exact ⟨⟨_, rfl⟩, ⟨_, rfl⟩⟩

end

end Happening.Sample

open Happening.Sample System.Sample in
theorem answered_at_second_attempt : ∃ ms d,
    Course service (.start 0 1 .accepting (.present answers []) (entropy 0)) ms d ∧
    answered service ∈ d.memory.meetings ∧ d.engine.calls.length = 2 ∧
    ((submissions service id ms).flatMap Moment.accepted).length = 1 := by
  obtain ⟨tally₁, h₁⟩ := create_state service .empty
  obtain ⟨tally₂, h₂⟩ := attach_state service tally₁
  obtain ⟨tally₃, h₃⟩ := (submit_state service tally₂).1
  obtain ⟨tally₄, h₄⟩ := (submit_state service tally₃).2
  have course : Course service (state [] [] (entropy 0) .empty) [] _ := .start
  have course := course.next (.command (.create draft))
  rw [h₁] at course
  have course := course.next (.command (.attachCall id "c" true))
  rw [h₂] at course
  have course := course.next (.command (.submit (token service) " good "))
  rw [h₃] at course
  have course := course.next (.command (.submit (token service) " good "))
  rw [h₄] at course
  obtain ⟨accounts, _, _⟩ := answers_agree service course
  obtain ⟨_, haccepted, htaken, _⟩ := accounts (answered service) (List.mem_singleton_self _)
  exact ⟨_, _, course, List.mem_singleton_self _, rfl, haccepted.trans htaken⟩

end Rendezvous
