import Rendezvous.Proofs.Interleaving.Lifecycle

namespace Rendezvous

namespace Service

/-- What is left of a submission when the call engine has accepted the answer. -/
def note (id value : String) : Action Unit := do
  match ← Action.ask (.store (.setSatisfaction id value)) with
  | .error fault => failSubmission .error fault
  | .ok () => Action.count (.surveyAnswered .success)

def tell (id : String) (m : Meeting) (callId value : String) : Action Unit := do
  match ← Action.ask (.setVariables m.domainId callId (.single answerVariable value)) with
  | .error fault => failSubmission .error fault
  | .ok () => note id value

theorem run_note (id value : String) :
    (note id value).run = .ask (.store (.setSatisfaction id value)) fun r =>
      (match r with
        | .error fault => failSubmission .error fault
        | .ok () => Action.count (.surveyAnswered .success) : Action Unit).run := rfl

theorem run_tell (id : String) (m : Meeting) (callId value : String) :
    (tell id m callId value).run =
      .ask (.setVariables m.domainId callId (.single answerVariable value)) fun r =>
        (match r with
          | .error fault => failSubmission .error fault
          | .ok () => note id value : Action Unit).run := rfl

end Service

open Service (note tell)

namespace Activity

variable {s : Service} {token answer id value : String}

/-- A submission reads the meeting; if its survey is open, it reads the clock and goes on. -/
theorem program_submit (hid : s.cipher.redeem token = .ok id)
    (hvalue : Meeting.tidyAnswer answer = .ok value) :
    ∃ next, (submit token answer).program s = .ask (.store (.get id)) next ∧
      ∀ m callId, Service.surveyedCall m = .ok callId →
        next (.ok m) = .ask .clock fun _ => (tell id m callId value).run := by
  have hredeem : s.redeem token = pure id := by
    unfold Service.redeem
    rw [hid]
  change ∃ next, (s.submit token answer).run = _ ∧ _
  unfold Service.submit
  rw [hvalue, hredeem]
  refine ⟨_, rfl, ?_⟩
  intro m callId hcall
  have hvisible : ∀ now, m.isVisibleAt now := by
    obtain ⟨hsome, _⟩ := Service.of_surveyedCall hcall
    simp [Meeting.isVisibleAt, hsome]
  refine congrArg (Program.ask _) (funext fun now => ?_)
  simp only [hvisible, if_true]
  change (Program.done _).bind _ = _
  simp only [Program.bind, ExceptT.bindCont, hcall, Service.run_tell]
  refine congrArg (Program.ask _) (funext fun r => ?_)
  rcases r with fault | ⟨⟩
  · rfl
  · dsimp only
    rw [Service.run_note]
    refine congrArg (Program.ask _) (funext fun r => ?_)
    rcases r with fault | ⟨⟩
    · rfl
    · rfl

variable {m : Meeting} {now : Int64} {callId : String} {p : Program (Except Fault Unit)}

theorem follows_read (hid : s.cipher.redeem token = .ok id)
    (hvalue : Meeting.tidyAnswer answer = .ok value) (hcall : Service.surveyedCall m = .ok callId)
    (h : ((submit token answer).program s).Follows [⟨.store (.get id), .ok m⟩] p) :
    p = .ask .clock fun _ => (tell id m callId value).run := by
  obtain ⟨next, hprogram, hnext⟩ := program_submit hid hvalue
  obtain ⟨next', hnil, rfl⟩ := Program.follows_cons h
  have heq := Program.follows_nil hnil
  rw [hprogram] at heq
  cases heq
  exact hnext m callId hcall

theorem follows_found (hid : s.cipher.redeem token = .ok id)
    (hvalue : Meeting.tidyAnswer answer = .ok value) (hcall : Service.surveyedCall m = .ok callId)
    (h : ((submit token answer).program s).Follows (found id m now) p) :
    p = (tell id m callId value).run := by
  obtain ⟨next, hread, rfl⟩ := Program.follows_cons h
  cases follows_read hid hvalue hcall hread
  rfl

theorem follows_accepted (hid : s.cipher.redeem token = .ok id)
    (hvalue : Meeting.tidyAnswer answer = .ok value) (hcall : Service.surveyedCall m = .ok callId)
    (h : ((submit token answer).program s).Follows (accepted m callId value :: found id m now) p) :
    p = (note id value).run := by
  obtain ⟨next, hfound, rfl⟩ := Program.follows_cons h
  have heq := follows_found hid hvalue hcall hfound
  rw [Service.run_tell] at heq
  cases heq
  rfl

end Activity

namespace System

open Exchange

variable {s : Service} {w w' : System} {i j : Nat} {id value : String}

def Noted (w : System) (i : Nat) (id value : String) : Prop := ⟨i, noted id value⟩ ∈ w.trace

def Told (s : Service) (w : System) (i : Nat) (id : String) : Prop :=
  ∃ token answer m now callId value later,
    history w.trace i = later ++ accepted m callId value :: found id m now ∧
      Admitted s token answer id m now callId value

def Answered (s : Service) (w : System) (i : Nat) (id : String) : Prop :=
  ∃ token answer, s.cipher.redeem token = .ok id ∧
    w.tasks[i]? = some ⟨.submit token answer, some (.done (.ok ()))⟩

/-- What is left of a submission that has found the survey open, until it notes the answer. -/
inductive Left (id value : String) : Program (Except Fault Unit) → Prop where
  | clock (m : Meeting) (callId : String) :
    Left id value (.ask .clock fun _ => (tell id m callId value).run)
  | tell (m : Meeting) (callId : String) : Left id value (tell id m callId value).run
  | note : Left id value (note id value).run

/-- That a task has found the survey open and is about to note an answer, sooner or later. -/
def Underway (s : Service) (w : System) (i : Nat) (id value : String) : Prop :=
  ∃ token answer p, s.cipher.redeem token = .ok id ∧
    w.tasks[i]? = some ⟨.submit token answer, some p⟩ ∧ Left id value p

theorem Reachable.moment_of_noted (h : Reachable s w) (hi : w.Noted i id value) :
    ∃ w₀ w₁ token answer m now callId, Reachable s w₀ ∧
      w₀.Answers i (.submit token answer) (noted id value) w₁ ∧ Steps s w₁ w ∧
      history w₀.trace i = accepted m callId value :: found id m now ∧
      Admitted s token answer id m now callId value := by
  obtain ⟨w₀, a, w₁, hw₀, hans, hsteps⟩ := h.moment_of_mem hi
  have hwarrants := hw₀.warrants hans
  cases a with
  | submit token answer =>
    obtain ⟨m, now, callId, hpast, admitted⟩ := hwarrants
    exact ⟨w₀, w₁, token, answer, m, now, callId, hw₀, hans, hsteps, hpast, admitted⟩
  | _ => exact hwarrants.elim

/-- An answer stays noted. -/
theorem Reachable.answered_of_noted (h : Reachable s w) (hi : w.Noted i id value) {n : Meeting}
    (hn : n ∈ w.meetings) (hid : n.id = id) : n.satisfaction.isSome := by
  obtain ⟨w₀, w₁, _, _, _, _, _, hw₀, hans, hsteps, _, _⟩ := h.moment_of_noted hi
  obtain ⟨n₀, _, hid₀, hmem⟩ := Deployment.of_handle_setSatisfaction hans.answer_eq
  have hmem : { n₀ with satisfaction := some value } ∈ w₁.meetings := by
    rw [meetings, ← hans.deployment_eq]
    exact hmem
  have hev := (hw₀.steps hans.steps).evolves hsteps hmem hn (hid.trans hid₀.symm)
  exact hev.answered rfl

/-- What has been read after an answer was noted shows one. -/
theorem Reachable.answered_of_read (h : Reachable s w) {newer older : List Entry} {m : Meeting}
    (hread : w.trace = newer ++ ⟨j, .store (.get id), .ok m⟩ :: older)
    (hi : ⟨i, noted id value⟩ ∈ older) : m.satisfaction.isSome := by
  obtain ⟨w₀, a, w₁, hw₀, rfl, hans, _⟩ := h.moment hread
  obtain ⟨hid, hmem⟩ := Deployment.of_handle_get hans.answer_eq
  exact hw₀.answered_of_noted hi hmem hid

/-- What is stored as an answer was noted. -/
theorem Reachable.noted_of_answered (h : Reachable s w) {n : Meeting} (hn : n ∈ w.meetings)
    (hvalue : n.satisfaction = some value) : ∃ i, w.Noted i n.id value := by
  revert n
  refine h.record (P := fun meetings trace => ∀ {n : Meeting}, n ∈ meetings →
    n.satisfaction = some value → ∃ i, ⟨i, noted n.id value⟩ ∈ trace) (by simp) ?_
  intro w w' i a e hw ih ans n hn hvalue
  rw [ans.trace]
  rcases ans.mem_meetings hn with ⟨m, hm, rfl⟩ | rfl
  · rw [id_effect]
    have old : m.satisfaction = some value → ∃ j, ⟨j, noted m.id value⟩ ∈ ⟨i, e⟩ :: w.trace := by
      intro h
      obtain ⟨j, hj⟩ := ih hm h
      exact ⟨j, List.mem_cons_of_mem _ hj⟩
    unfold effect at hvalue
    split at hvalue
    · split at hvalue
      · exact old hvalue
      · exact old hvalue
    · next id v u =>
      split at hvalue
      · next hid =>
        cases hvalue
        refine ⟨i, ?_⟩
        rw [hid]
        exact List.mem_cons_self
      · exact old hvalue
    · exact old hvalue
  · obtain ⟨⟨d, url, now, hd⟩, _⟩ := hw.of_created ans
    rw [hd] at hvalue
    cases hvalue

theorem Reachable.noted_once (h : Reachable s w) {value' : String} (hi : w.Noted i id value)
    (hi' : w.Noted i id value') : value = value' := by
  have later : ∀ {newer older : List Entry} {v v' : String},
      w.trace = newer ++ ⟨i, noted id v⟩ :: older → ⟨i, noted id v'⟩ ∉ older := by
    intro newer older v v' htrace hmem
    obtain ⟨w₀, a, w₁, hw₀, rfl, hans, _⟩ := h.moment htrace
    have hwarrants := hw₀.warrants hans
    cases a with
    | submit token answer =>
      obtain ⟨m, now, callId, hpast, _⟩ := hwarrants
      have hmem := mem_history.mpr hmem
      rw [hpast] at hmem
      simp [noted, accepted, found] at hmem
    | _ => exact hwarrants.elim
  obtain ⟨newer, older, htrace⟩ := List.append_of_mem hi
  rw [Noted, htrace] at hi'
  rcases List.mem_append.mp hi' with hnewer | holder
  · obtain ⟨a, b, rfl⟩ := List.append_of_mem hnewer
    have hsplit : w.trace = a ++ ⟨i, noted id value'⟩ :: (b ++ ⟨i, noted id value⟩ :: older) := by
      rw [htrace]
      simp
    exact absurd (List.mem_append_right _ List.mem_cons_self) (later hsplit)
  · rcases List.mem_cons.mp holder with heq | holder
    · cases heq
      rfl
    · exact absurd holder (later htrace)

/-- A submission that has read an open survey, and has not come further than to be told, is
underway. -/
theorem left_of_follows {token answer : String} {m : Meeting} {now : Int64} {callId : String}
    (admitted : Admitted s token answer id m now callId value) {past : List Exchange}
    (hpast : past <:+ accepted m callId value :: found id m now) (hne : past ≠ [])
    {p : Program (Except Fault Unit)}
    (h : ((Activity.submit token answer).program s).Follows past p) : Left id value p := by
  obtain ⟨hid, hvalue, _, hcall⟩ := admitted
  simp only [found, List.suffix_cons_iff, List.suffix_nil] at hpast
  rcases hpast with rfl | rfl | rfl | rfl
  · rw [Activity.follows_accepted hid hvalue hcall h]
    exact .note
  · rw [Activity.follows_found hid hvalue hcall h]
    exact .tell m callId
  · rw [Activity.follows_read hid hvalue hcall h]
    exact .clock m callId
  · exact absurd rfl hne

/-- Who has found the survey open has read the meeting before an answer was noted. -/
theorem Reachable.read_of_surveyed (h : Reachable s w) {m : Meeting} {callId : String}
    (hread : ⟨j, .store (.get id), .ok m⟩ ∈ w.trace) (hopen : Service.surveyedCall m = .ok callId)
    {newer older : List Entry} (htrace : w.trace = newer ++ ⟨i, noted id value⟩ :: older) :
    ⟨j, .store (.get id), .ok m⟩ ∈ older := by
  rw [htrace] at hread
  rcases List.mem_append.mp hread with hmem | hmem
  · obtain ⟨l, l', rfl⟩ := List.append_of_mem hmem
    have hsplit : w.trace = l ++ ⟨j, .store (.get id), .ok m⟩ ::
        (l' ++ ⟨i, noted id value⟩ :: older) := by
      rw [htrace]
      simp
    have hsome := h.answered_of_read hsplit (List.mem_append_right _ List.mem_cons_self)
    obtain ⟨_, _, hnone⟩ := Service.of_surveyedCall hopen
    simp [hnone] at hsome
  · rcases List.mem_cons.mp hmem with heq | hmem
    · cases heq
    · exact hmem

/-- A submission that is about to note its answer has been underway since it read the meeting. -/
theorem Reachable.underway_of_steps (h : Reachable s w) (hsteps : Steps s w w')
    {token answer : String} {m : Meeting} {now : Int64} {callId : String}
    (hread : ⟨j, .store (.get id), .ok m⟩ ∈ w.trace) {p : Program (Except Fault Unit)}
    (hasks : w'.tasks[j]? = some ⟨.submit token answer, some p⟩)
    (hpast : history w'.trace j = accepted m callId value :: found id m now)
    (admitted : Admitted s token answer id m now callId value) : Underway s w j id value := by
  have hsuffix := hsteps.history j
  rw [hpast] at hsuffix
  have hne : history w.trace j ≠ [] := List.ne_nil_of_mem (mem_history.mpr hread)
  have hlt : j < w.tasks.length := h.task_lt hread
  have ht : w.tasks[j]? = some w.tasks[j] := List.getElem?_eq_getElem hlt
  obtain ⟨t', ht', hact, hgiven⟩ := hsteps.task ht
  obtain rfl := Option.some.inj (hasks.symm.trans ht')
  generalize w.tasks[j] = t at ht hact hgiven
  obtain ⟨b, rest⟩ := t
  cases hact
  cases rest with
  | none => cases hgiven rfl
  | some p =>
    refine ⟨token, answer, p, admitted.redeemed, ht, ?_⟩
    exact left_of_follows admitted hsuffix hne (h.follows ht)

/-- When the first of two answers was noted, the other submission had found the survey open. -/
theorem Reachable.underway_of_noted (h : Reachable s w) {value' : String}
    {newer older : List Entry} (hj : w.trace = newer ++ ⟨j, noted id value'⟩ :: older)
    (hi : ⟨i, noted id value⟩ ∈ older) :
    ∃ w₀, Reachable s w₀ ∧ Steps s w₀ w ∧ Underway s w₀ i id value ∧ Underway s w₀ j id value' := by
  obtain ⟨wj, a, wj', hwj, rfl, hansj, hstepsj⟩ := h.moment hj
  obtain ⟨wi, wi', token, answer, m, now, callId, hwi, hansi, hlater, hpast, admitted⟩ :=
    hwj.moment_of_noted hi
  have hsteps : Steps s wi wj := hansi.steps.trans hlater
  refine ⟨wi, hwi, (hsteps.trans hansj.steps).trans hstepsj, ?_, ?_⟩
  · obtain ⟨next, hasks, _⟩ := hansi.asks
    refine ⟨token, answer, _, admitted.redeemed, hasks, ?_⟩
    exact left_of_follows admitted (hpast ▸ List.suffix_refl _) (by simp [hpast, found])
      (hwi.follows hasks)
  · have hwarrants := hwj.warrants hansj
    obtain ⟨next, hasks, _⟩ := hansj.asks
    cases a with
    | submit token answer =>
      obtain ⟨m, now, callId, hpast, admitted⟩ := hwarrants
      have hread : ⟨j, .store (.get id), .ok m⟩ ∈ wj.trace := by
        refine mem_history.mp ?_
        rw [hpast]
        simp [found]
      obtain ⟨later, htrace⟩ := hlater.trace
      rw [hansi.trace] at htrace
      have hearly := hwj.read_of_surveyed hread admitted.surveyed htrace
      exact hwi.underway_of_steps hsteps hearly hasks hpast admitted
    | _ => exact hwarrants.elim

/-- Two answers to one survey are noted only if their submissions have been underway together. -/
theorem Reachable.underway_together (h : Reachable s w) (hij : i ≠ j) {value' : String}
    (hi : w.Noted i id value) (hj : w.Noted j id value') :
    ∃ w₀, Reachable s w₀ ∧ Steps s w₀ w ∧ Underway s w₀ i id value ∧ Underway s w₀ j id value' := by
  obtain ⟨newer, older, htrace⟩ := List.append_of_mem hj
  have hmem := hi
  rw [Noted, htrace] at hmem
  rcases List.mem_append.mp hmem with hnewer | holder
  · obtain ⟨l, l', rfl⟩ := List.append_of_mem hnewer
    have hsplit : w.trace = l ++ ⟨i, noted id value⟩ ::
        (l' ++ ⟨j, noted id value'⟩ :: older) := by
      rw [htrace]
      simp
    obtain ⟨w₀, hw₀, hsteps, hj, hi⟩ := h.underway_of_noted hsplit
      (List.mem_append_right _ List.mem_cons_self)
    exact ⟨w₀, hw₀, hsteps, hi, hj⟩
  · rcases List.mem_cons.mp holder with heq | holder
    · cases heq
      exact absurd rfl hij
    · exact h.underway_of_noted htrace holder

def mended (d : Deployment) : Deployment := { d with faults := fun _ => none, engine := .accepting }

theorem steps_mended (w : System) : Steps s w { w with deployment := mended w.deployment } :=
  .single (.drift w (mended w.deployment) rfl rfl)

theorem run_note_of_ok {d : Deployment}
    (hd : (d.handle (.store (.setSatisfaction id value))).1 = .ok ()) :
    (d.run (note id value).run).1 = .ok () ∧ (d.run (note id value).run).2.memory =
      (d.handle (.store (.setSatisfaction id value))).2.memory := by
  rw [Service.run_note]
  simp only [Deployment.run, Program.run, hd]
  exact ⟨rfl, rfl⟩

theorem Reachable.exists_note_of_tell (h : Reachable s w) {token answer : String} {m : Meeting}
    {callId : String}
    (hp : w.tasks[i]? = some ⟨.submit token answer, some (tell id m callId value).run⟩) :
    ∃ w', Steps s w w' ∧ w'.meetings = w.meetings ∧
      w'.tasks = w.tasks.set i ⟨.submit token answer, some (note id value).run⟩ := by
  rw [Service.run_tell] at hp
  obtain ⟨w', hsteps, hd, ht⟩ := (h.steps (steps_mended w)).exists_steps_run
    (q := Program.answer (.setVariables m.domainId callId (.single Service.answerVariable value)))
    hp (fun _ ha => nomatch ha)
  refine ⟨w', (steps_mended w).trans hsteps, ?_, ?_⟩
  · rw [meetings, hd]
    rfl
  · rw [ht]
    rfl

/-- A submission that is underway can get to note its answer. -/
theorem Reachable.exists_note (h : Reachable s w) (hi : Underway s w i id value) :
    ∃ w' token answer, Steps s w w' ∧ w'.meetings = w.meetings ∧ s.cipher.redeem token = .ok id ∧
      w'.tasks = w.tasks.set i ⟨.submit token answer, some (note id value).run⟩ := by
  obtain ⟨token, answer, p, hid, hp, hleft⟩ := hi
  have hlt := (List.getElem?_eq_some_iff.mp hp).1
  cases hleft with
  | clock m callId =>
    obtain ⟨w₁, hsteps₁, hd₁, ht₁⟩ := h.exists_steps_run (q := Program.answer .clock) hp
      (fun _ ha => nomatch ha)
    have hm₁ : w₁.meetings = w.meetings := by
      rw [meetings, hd₁]
      rfl
    obtain ⟨w₂, hsteps₂, hm₂, ht₂⟩ := (h.steps hsteps₁).exists_note_of_tell
      (by rw [ht₁]; exact List.getElem?_set_self hlt)
    refine ⟨w₂, token, answer, hsteps₁.trans hsteps₂, hm₂.trans hm₁, hid, ?_⟩
    rw [ht₂, ht₁, List.set_set]
  | tell m callId =>
    obtain ⟨w₁, hsteps, hm, ht⟩ := h.exists_note_of_tell hp
    exact ⟨w₁, token, answer, hsteps, hm, hid, ht⟩
  | note =>
    obtain ⟨hlt, ht⟩ := List.getElem?_eq_some_iff.mp hp
    exact ⟨w, token, answer, .refl w, rfl, hid, (ht ▸ List.set_getElem_self hlt).symm⟩

/-- A submission that is about to note its answer can succeed while the meeting is stored. -/
theorem Reachable.exists_noted (h : Reachable s w) {token answer : String}
    (hp : w.tasks[i]? = some ⟨.submit token answer, some (note id value).run⟩)
    {n : Meeting} (hn : n ∈ w.meetings) (hid : n.id = id) :
    ∃ w', Steps s w w' ∧ (∃ n' ∈ w'.meetings, n'.id = id ∧ n'.satisfaction = some value) ∧
      w'.tasks = w.tasks.set i ⟨.submit token answer, some (.done (.ok ()))⟩ := by
  have hmended := h.steps (steps_mended w)
  have hok : ((mended w.deployment).handle (.store (.setSatisfaction id value))).1 = .ok () :=
    hid ▸ Deployment.handle_setSatisfaction rfl hmended.keyed hn value
  obtain ⟨n', _, hid', hn'⟩ := Deployment.of_handle_setSatisfaction hok
  obtain ⟨hanswer, hmemory⟩ := run_note_of_ok hok
  have hp : w.tasks[i]? = some ⟨.submit token answer, some ((note id value).run >>= .done)⟩ := by
    rw [Program.bind_done]
    exact hp
  obtain ⟨w', hsteps, hd, ht⟩ := hmended.exists_steps_run hp (fun _ ha => nomatch ha)
  refine ⟨w', (steps_mended w).trans hsteps,
    ⟨{ n' with satisfaction := some value }, ?_, hid', rfl⟩, ?_⟩
  · rw [meetings, hd, hmemory]
    exact hn'
  · rw [ht, hanswer]

/-- Of two submissions that are underway together both can succeed, and the answer of the second
takes the place of the first. -/
theorem Reachable.exists_answered_twice (h : Reachable s w) (hij : i ≠ j) {value' : String}
    (hi : Underway s w i id value) (hj : Underway s w j id value') {n : Meeting}
    (hn : n ∈ w.meetings) (hid : n.id = id) :
    ∃ w₁ w₂, Steps s w w₁ ∧ Steps s w₁ w₂ ∧
      (∃ m ∈ w₁.meetings, m.id = id ∧ m.satisfaction = some value) ∧
      (∃ m ∈ w₂.meetings, m.id = id ∧ m.satisfaction = some value') ∧
      Answered s w₂ i id ∧ Answered s w₂ j id := by
  obtain ⟨wa, tokeni, answeri, hstepsa, hma, hidi, hta⟩ := h.exists_note hi
  have hjt : Underway s wa j id value' := by
    obtain ⟨token, answer, p, hidj, hp, hleft⟩ := hj
    exact ⟨token, answer, p, hidj, by rw [hta, List.getElem?_set_ne hij]; exact hp, hleft⟩
  obtain ⟨wb, tokenj, answerj, hstepsb, hmb, hidj, htb⟩ := (h.steps hstepsa).exists_note hjt
  have hlti : i < w.tasks.length := by
    obtain ⟨_, _, _, _, hp, _⟩ := hi
    exact (List.getElem?_eq_some_iff.mp hp).1
  have hltj : j < wa.tasks.length := by
    obtain ⟨_, _, _, _, hp, _⟩ := hjt
    exact (List.getElem?_eq_some_iff.mp hp).1
  have hpi : wb.tasks[i]? = some ⟨.submit tokeni answeri, some (note id value).run⟩ := by
    rw [htb, List.getElem?_set_ne (Ne.symm hij), hta]
    exact List.getElem?_set_self hlti
  have hnb : n ∈ wb.meetings := by
    rw [hmb, hma]
    exact hn
  have hwb := (h.steps hstepsa).steps hstepsb
  obtain ⟨w₁, hsteps₁, ⟨n₁, hn₁, hid₁, hvalue₁⟩, ht₁⟩ := hwb.exists_noted hpi hnb hid
  have hpj : w₁.tasks[j]? = some ⟨.submit tokenj answerj, some (note id value').run⟩ := by
    rw [ht₁, List.getElem?_set_ne hij, htb]
    exact List.getElem?_set_self hltj
  obtain ⟨w₂, hsteps₂, hn₂, ht₂⟩ := (hwb.steps hsteps₁).exists_noted hpj hn₁ hid₁
  have hltb : i < wb.tasks.length := (List.getElem?_eq_some_iff.mp hpi).1
  have hlt₁ : j < w₁.tasks.length := (List.getElem?_eq_some_iff.mp hpj).1
  refine ⟨w₁, w₂, (hstepsa.trans hstepsb).trans hsteps₁, hsteps₂, ⟨n₁, hn₁, hid₁, hvalue₁⟩, hn₂,
    ⟨tokeni, answeri, hidi, ?_⟩, ⟨tokenj, answerj, hidj, ?_⟩⟩
  · rw [ht₂, List.getElem?_set_ne (Ne.symm hij), ht₁]
    exact List.getElem?_set_self hltb
  · rw [ht₂]
    exact List.getElem?_set_self hlt₁

/-- A submission that begins while the survey is open can get underway. -/
theorem Reachable.exists_underway (h : Reachable s w) {token answer : String} {n : Meeting}
    (hn : n ∈ w.meetings) {callId : String} (hopen : Service.surveyedCall n = .ok callId)
    (hid : s.cipher.redeem token = .ok n.id) (hvalue : Meeting.tidyAnswer answer = .ok value) :
    ∃ w' t, Steps s w w' ∧ n ∈ w'.meetings ∧ w'.tasks = w.tasks ++ [t] ∧
      Underway s w' w.tasks.length n.id value := by
  have hmended := h.steps (steps_mended w)
  obtain ⟨hcall, _, _⟩ := Service.of_surveyedCall hopen
  have hvisible : n.isVisibleAt (mended w.deployment).storeClock.now := by
    simp [Meeting.isVisibleAt, hcall]
  obtain ⟨hanswer, hmem⟩ := Deployment.handle_get rfl hmended.keyed hn hvisible
  obtain ⟨next, hprogram, hnext⟩ := Activity.program_submit hid hvalue
  obtain ⟨w', hsteps, hd, ht⟩ := hmended.exists_steps_begin (a := .submit token answer)
    (q := Program.answer (.store (.get n.id))) (f := next) hprogram (fun h => nomatch h)
    (fun _ ha => nomatch ha)
  have hrun : ((mended w.deployment).run (Program.answer (.store (.get n.id)))).1 = .ok n := hanswer
  rw [hrun, hnext n callId hopen] at ht
  refine ⟨w', _, (steps_mended w).trans hsteps, ?_, ht, token, answer, _, hid, ?_, .clock n callId⟩
  · rw [meetings, hd]
    exact hmem
  · rw [ht]
    simp

/-- While no answer has been noted, another submission can succeed, whatever the call engine has
been told. -/
theorem Reachable.exists_answered (h : Reachable s w) {token answer : String} {n : Meeting}
    (hn : n ∈ w.meetings) (hbridged : n.bridged) (hopen : ∀ i v, ¬w.Noted i n.id v)
    (hid : s.cipher.redeem token = .ok n.id) (hvalue : Meeting.tidyAnswer answer = .ok value) :
    ∃ w', Steps s w w' ∧ Answered s w' w.tasks.length n.id := by
  obtain ⟨callId, hcall⟩ : ∃ callId, Service.surveyedCall n = .ok callId := by
    have hsome := (h.coherent hn).of_bridged hbridged
    obtain ⟨callId, hcall⟩ := Option.isSome_iff_exists.mp hsome
    have hnone : n.satisfaction = none := by
      rw [Option.eq_none_iff_forall_ne_some]
      intro v hv
      obtain ⟨i, hi⟩ := h.noted_of_answered hn hv
      exact hopen i v hi
    exact ⟨callId, by simp [Service.surveyedCall, hcall, hnone, hbridged]⟩
  obtain ⟨w₁, t, hsteps₁, hn₁, ht₁, hunder⟩ := h.exists_underway hn hcall hid hvalue
  have hw₁ := h.steps hsteps₁
  obtain ⟨w₂, token', answer', hsteps₂, hm₂, hid', ht₂⟩ := hw₁.exists_note hunder
  have hlt : w.tasks.length < w₁.tasks.length := by simp [ht₁]
  have hp : w₂.tasks[w.tasks.length]? =
      some ⟨.submit token' answer', some (note n.id value).run⟩ := by
    rw [ht₂]
    exact List.getElem?_set_self hlt
  obtain ⟨w₃, hsteps₃, _, ht₃⟩ := (hw₁.steps hsteps₂).exists_noted hp (hm₂ ▸ hn₁) rfl
  refine ⟨w₃, (hsteps₁.trans hsteps₂).trans hsteps₃, token', answer', hid', ?_⟩
  rw [ht₃]
  exact List.getElem?_set_self (List.getElem?_eq_some_iff.mp hp).1

/-- Who has succeeded was told and has noted an answer. -/
theorem Reachable.of_answered (h : Reachable s w) (hi : Answered s w i id) :
    Told s w i id ∧ ∃ value, w.Noted i id value := by
  obtain ⟨token, answer, hid, hp⟩ := hi
  have hconcludes := Program.ensures_done.mp (h.ensures hp)
  obtain ⟨id', m, now, callId, value, last, hpast, admitted⟩ := hconcludes rfl
  obtain rfl : id = id' := Except.ok.inj (hid.symm.trans admitted.redeemed)
  refine ⟨⟨token, answer, m, now, callId, value, [last, noted id value], hpast, admitted⟩,
    value, ?_⟩
  refine mem_history.mp ?_
  rw [hpast]
  simp

theorem Told.steps (hi : Told s w i id) (h : Steps s w w') : Told s w' i id := by
  obtain ⟨token, answer, m, now, callId, value, later, hpast, admitted⟩ := hi
  obtain ⟨newer, hnewer⟩ := h.history i
  refine ⟨token, answer, m, now, callId, value, newer ++ later, ?_, admitted⟩
  rw [← hnewer, hpast, List.append_assoc]

/-- That no two submissions for a meeting have been underway together until now. -/
def Apart (s : Service) (w : System) (id : String) : Prop :=
  ∀ w₀, Reachable s w₀ → Steps s w₀ w → ∀ i j value value',
    Underway s w₀ i id value → Underway s w₀ j id value' → i = j

/-- As long as submissions are underway apart, one at most succeeds, the call engine is told once by
those that note what they tell it, and an answer is never overwritten by another. Two that are
underway together can both succeed, and the second answer overwrites the first; and what has been
told but not noted does not keep another submission from success. -/
theorem answered_once_while_apart (h : Reachable s w) (id : String) :
    (Apart s w id →
      (∀ i j, Answered s w i id → Answered s w j id → i = j) ∧
      (∀ i j, Told s w i id → Told s w j id → (∃ v, w.Noted i id v) → (∃ v, w.Noted j id v) →
        i = j) ∧
      (∀ w₀ m n v v', Reachable s w₀ → Steps s w₀ w → m ∈ w₀.meetings → n ∈ w.meetings →
        m.id = id → n.id = id → m.satisfaction = some v → n.satisfaction = some v' → v' = v)) ∧
    (∀ i j v v' n, i ≠ j → Underway s w i id v → Underway s w j id v' → n ∈ w.meetings →
      n.id = id → ∃ w₁ w₂, Steps s w w₁ ∧ Steps s w₁ w₂ ∧
        (∃ m ∈ w₁.meetings, m.id = id ∧ m.satisfaction = some v) ∧
        (∃ m ∈ w₂.meetings, m.id = id ∧ m.satisfaction = some v') ∧
        Answered s w₂ i id ∧ Answered s w₂ j id ∧ Told s w₂ i id ∧ Told s w₂ j id) ∧
    (∀ n token answer v, n ∈ w.meetings → n.id = id → n.bridged → (∀ i v, ¬w.Noted i id v) →
      s.cipher.redeem token = .ok id → Meeting.tidyAnswer answer = .ok v →
      ∃ w', Steps s w w' ∧ Answered s w' w.tasks.length id ∧ Told s w' w.tasks.length id ∧
        ∀ i, Told s w i id → Told s w' i id) := by
  have once : Apart s w id → ∀ i j v v', w.Noted i id v → w.Noted j id v' → i = j := by
    intro hapart i j v v' hi hj
    by_contra hij
    obtain ⟨w₀, hw₀, hsteps, hi₀, hj₀⟩ := h.underway_together hij hi hj
    exact hij (hapart w₀ hw₀ hsteps i j v v' hi₀ hj₀)
  refine ⟨fun hapart => ⟨?_, ?_, ?_⟩, ?_, ?_⟩
  · intro i j hi hj
    obtain ⟨_, v, hv⟩ := h.of_answered hi
    obtain ⟨_, v', hv'⟩ := h.of_answered hj
    exact once hapart i j v v' hv hv'
  · rintro i j _ _ ⟨v, hv⟩ ⟨v', hv'⟩
    exact once hapart i j v v' hv hv'
  · intro w₀ m n v v' hw₀ hsteps hm hn hmid hnid hv hv'
    obtain ⟨i, hi⟩ := hw₀.noted_of_answered hm hv
    obtain ⟨j, hj⟩ := h.noted_of_answered hn hv'
    have hi : w.Noted i id v := hmid ▸ hsteps.mem_trace hi
    have hj : w.Noted j id v' := hnid ▸ hj
    obtain rfl := once hapart i j v v' hi hj
    exact h.noted_once hj hi
  · intro i j v v' n hij hi hj hn hid
    obtain ⟨w₁, w₂, hsteps₁, hsteps₂, h₁, h₂, hi₂, hj₂⟩ := h.exists_answered_twice hij hi hj hn hid
    have hw₂ := (h.steps hsteps₁).steps hsteps₂
    exact ⟨w₁, w₂, hsteps₁, hsteps₂, h₁, h₂, hi₂, hj₂, (hw₂.of_answered hi₂).1,
      (hw₂.of_answered hj₂).1⟩
  · intro n token answer v hn hid hbridged hopen hredeem hvalue
    subst hid
    obtain ⟨w', hsteps, hanswered⟩ := h.exists_answered hn hbridged hopen hredeem hvalue
    exact ⟨w', hsteps, hanswered, ((h.steps hsteps).of_answered hanswered).1,
      fun i hi => hi.steps hsteps⟩

open Sample in
/-- Two answers to the survey of the first meeting are taken. -/
theorem answered_good_and_bad : ∃ w i j, Reachable service w ∧ i ≠ j ∧
    Answered service w i Sample.id ∧ Answered service w j Sample.id ∧
    ∃ m ∈ w.meetings, m.id = Sample.id ∧ m.satisfaction = some "bad" := by
  obtain ⟨w, w₀, hw, hsteps, _, _, hm₀⟩ := exists_called service
  have hw₀ := hw.steps hsteps
  have hopen : Service.surveyedCall (called service) = .ok "c" := rfl
  have hredeem : service.cipher.redeem (token service) = .ok (called service).id :=
    redeem_token service
  have hbad : Meeting.tidyAnswer "bad" = .ok "bad" := by decide +kernel
  obtain ⟨w₁, t, hsteps₁, hm₁, ht₁, hi⟩ :=
    hw₀.exists_underway (n := called service) (by simp [hm₀]) hopen hredeem tidyAnswer_good
  have hw₁ := hw₀.steps hsteps₁
  obtain ⟨w₂, t', hsteps₂, hm₂, ht₂, hj⟩ := hw₁.exists_underway hm₁ hopen hredeem hbad
  have hne : w₀.tasks.length ≠ w₁.tasks.length := by simp [ht₁]
  have hi : Underway service w₂ w₀.tasks.length (called service).id "good" := by
    obtain ⟨token, answer, p, hid, hp, hleft⟩ := hi
    have hlt := (List.getElem?_eq_some_iff.mp hp).1
    exact ⟨token, answer, p, hid, by rw [ht₂, List.getElem?_append_left hlt]; exact hp, hleft⟩
  have hw₂ := hw₁.steps hsteps₂
  obtain ⟨_, htwice, _⟩ := answered_once_while_apart hw₂ (called service).id
  obtain ⟨w₃, w₄, hsteps₃, hsteps₄, _, hm₄, hi₄, hj₄, _⟩ :=
    htwice _ _ _ _ (called service) hne hi hj hm₂ rfl
  exact ⟨w₄, _, _, (hw₂.steps hsteps₃).steps hsteps₄, hne, hi₄, hj₄, hm₄⟩

end System

end Rendezvous
