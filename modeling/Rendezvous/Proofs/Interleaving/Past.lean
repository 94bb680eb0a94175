import Rendezvous.Proofs.Interleaving.Conduct
import Rendezvous.Proofs.Interleaving.Contents

namespace Rendezvous.System

open Exchange

variable {s : Service} {w w' : System} {i : Nat} {a : Activity} {e : Exchange}

theorem Answers.trace (h : w.Answers i a e w') : w'.trace = ⟨i, e⟩ :: w.trace := by
  cases h
  rfl

theorem Answers.answer_eq (h : w.Answers i a e w') :
    (w.deployment.handle e.question).1 = e.answer := by
  cases h
  rfl

theorem Answers.deployment_eq (h : w.Answers i a e w') :
    (w.deployment.handle e.question).2 = w'.deployment := by
  cases h
  rfl

theorem Answers.asks (h : w.Answers i a e w') :
    ∃ next, w.tasks[i]? = some ⟨a, some (.ask e.question next)⟩ ∧
      w'.tasks = w.tasks.set i ⟨a, some (next e.answer)⟩ := by
  cases h with
  | intro q next asks _ => exact ⟨next, asks, rfl⟩

theorem Answers.fresh (h : w.Answers i a e w') : w.Fresh e := by
  cases h with
  | intro q next _ fresh => exact fresh

theorem Answers.steps (h : w.Answers i a e w') : Steps s w w' := .single (.answer h)

theorem Answers.mem_meetings (h : w.Answers i a e w') {m : Meeting} (hm : m ∈ w'.meetings) :
    (∃ n ∈ w.meetings, m = e.effect n) ∨ e = created m := by
  cases h
  exact Deployment.mem_handle hm

/-- What holds at the start and is kept by each answer holds of the meetings and the trace. -/
theorem Reachable.record {P : List Meeting → List Entry → Prop} (start : P [] [])
    (answer : ∀ {w w' i a e}, Reachable s w → P w.meetings w.trace → w.Answers i a e w' →
      P w'.meetings w'.trace) (h : Reachable s w) : P w.meetings w.trace := by
  refine h.induction (P := fun w => P w.meetings w.trace) (fun _ _ _ _ _ => start) ?_
  intro w w' hw hP step
  cases step with
  | begin a free => exact hP
  | answer answers => exact answer hw hP answers
  | abandon i a p runs request => exact hP
  | drift d kept bounded =>
    change P d.memory.meetings w.trace
    rw [kept]
    exact hP

/-- An entry of the trace was once a step. -/
theorem Reachable.moment (h : Reachable s w) {newer older : List Entry} {x : Entry}
    (hx : w.trace = newer ++ x :: older) :
    ∃ w₀ a w₁, Reachable s w₀ ∧ w₀.trace = older ∧ w₀.Answers x.task a x.exchange w₁ ∧
      Steps s w₁ w := by
  revert newer
  refine h.induction (P := fun w => ∀ {newer}, w.trace = newer ++ x :: older → ∃ w₀ a w₁,
    Reachable s w₀ ∧ w₀.trace = older ∧ w₀.Answers x.task a x.exchange w₁ ∧ Steps s w₁ w) ?_ ?_
  · intro now capacity chat engine entropy newer hx
    simp [start] at hx
  · intro w w' hw ih step newer hx
    have later : ∀ {newer}, w.trace = newer ++ x :: older → ∃ w₀ a w₁,
        Reachable s w₀ ∧ w₀.trace = older ∧ w₀.Answers x.task a x.exchange w₁ ∧ Steps s w₁ w' := by
      intro newer hx
      obtain ⟨w₀, a, w₁, hw₀, hold, hans, hsteps⟩ := ih hx
      exact ⟨w₀, a, w₁, hw₀, hold, hans, hsteps.tail step⟩
    cases step with
    | begin a free => exact later hx
    | abandon i a p runs request => exact later hx
    | drift d kept bounded => exact later hx
    | answer answers =>
      rw [answers.trace] at hx
      rcases List.cons_eq_append_iff.mp hx with ⟨rfl, hcons⟩ | ⟨newer', rfl, htrace⟩
      · cases hcons
        exact ⟨w, _, w', hw, rfl, answers, .refl w'⟩
      · exact later htrace

theorem Reachable.moment_of_mem (h : Reachable s w) {x : Entry} (hx : x ∈ w.trace) :
    ∃ w₀ a w₁, Reachable s w₀ ∧ w₀.Answers x.task a x.exchange w₁ ∧ Steps s w₁ w := by
  obtain ⟨newer, older, htrace⟩ := List.append_of_mem hx
  obtain ⟨w₀, a, w₁, hw₀, _, hans, hsteps⟩ := h.moment htrace
  exact ⟨w₀, a, w₁, hw₀, hans, hsteps⟩

theorem Steps.trace (h : Steps s w w') : ∃ newer, w'.trace = newer ++ w.trace := by
  induction h with
  | refl => exact ⟨[], rfl⟩
  | tail _ step ih =>
    obtain ⟨newer, hnewer⟩ := ih
    cases step with
    | answer answers => exact ⟨_ :: newer, by rw [answers.trace, hnewer]; rfl⟩
    | _ => exact ⟨newer, hnewer⟩

theorem Steps.mem_trace {x : Entry} (h : Steps s w w') (hx : x ∈ w.trace) : x ∈ w'.trace := by
  obtain ⟨newer, hnewer⟩ := h.trace
  rw [hnewer]
  exact List.mem_append_right _ hx

theorem Steps.history (h : Steps s w w') (i : Nat) : history w.trace i <:+ history w'.trace i := by
  obtain ⟨newer, hnewer⟩ := h.trace
  rw [hnewer]
  exact ((List.suffix_append newer w.trace).filter _).map _

theorem task_of_set {ts : List Task} {j : Nat} {t u : Task} (h : (ts.set j t)[i]? = some u) :
    j = i ∧ t = u ∨ j ≠ i ∧ ts[i]? = some u := by
  rw [List.getElem?_set] at h
  split at h
  · next hji =>
    refine .inl ⟨hji, ?_⟩
    split at h
    · exact Option.some.inj h
    · cases h
  · next hji => exact .inr ⟨hji, h⟩

theorem task_of_append {ts : List Task} {t u : Task} (h : (ts ++ [t])[i]? = some u) :
    ts[i]? = some u ∨ i = ts.length ∧ t = u := by
  rw [List.getElem?_append] at h
  split at h
  · exact .inl h
  · have hi := (List.getElem?_eq_some_iff.mp h).1
    have hi : i = ts.length := by
      simp only [List.length_singleton] at hi
      omega
    subst hi
    simp only [Nat.sub_self, List.getElem?_cons_zero, Option.some.injEq] at h
    exact .inr ⟨rfl, h⟩

theorem Step.length_tasks (h : Step s w w') : w.tasks.length ≤ w'.tasks.length := by
  cases h with
  | begin a free => simp
  | answer answers => cases answers; simp [tasks_turn]
  | abandon i a p runs request => simp
  | drift d kept bounded => exact Nat.le_refl _

theorem Reachable.task_lt (h : Reachable s w) {x : Entry} (hx : x ∈ w.trace) :
    x.task < w.tasks.length := by
  revert hx
  refine h.induction (P := fun w => x ∈ w.trace → x.task < w.tasks.length) ?_ ?_
  · intro now capacity chat engine entropy hx
    cases hx
  · intro w w' _ ih step hx
    have hle := step.length_tasks
    cases step with
    | answer answers =>
      obtain ⟨next, hp, _⟩ := answers.asks
      rw [answers.trace] at hx
      rcases List.mem_cons.mp hx with rfl | hx
      · have := (List.getElem?_eq_some_iff.mp hp).1
        exact Nat.lt_of_lt_of_le this hle
      · exact Nat.lt_of_lt_of_le (ih hx) hle
    | _ => exact Nat.lt_of_lt_of_le (ih hx) hle

theorem Reachable.history_of_le (h : Reachable s w) (hi : w.tasks.length ≤ i) :
    history w.trace i = [] := by
  rw [List.eq_nil_iff_forall_not_mem]
  intro e he
  have := h.task_lt (mem_history.mp he)
  exact absurd this (by simpa using hi)

/-- A task stays what it is; if it was given up, it stays so. -/
theorem Steps.task (h : Steps s w w') {t : Task} (ht : w.tasks[i]? = some t) :
    ∃ t', w'.tasks[i]? = some t' ∧ t'.activity = t.activity ∧ (t.rest = none → t'.rest = none) := by
  induction h with
  | refl => exact ⟨t, ht, rfl, fun h => h⟩
  | @tail w₁ w₂ _ step ih =>
    obtain ⟨t₁, ht₁, hact, hgiven⟩ := ih
    have hi := (List.getElem?_eq_some_iff.mp ht₁).1
    have moved : ∀ {j : Nat} {b : Activity} {p : Program b.Result} {t₂ : Task},
        w₁.tasks[j]? = some ⟨b, some p⟩ → t₂.activity = b →
          ∃ t', (w₁.tasks.set j t₂)[i]? = some t' ∧
          t'.activity = t.activity ∧ (t.rest = none → t'.rest = none) := by
      intro j b p t₂ hj hb
      by_cases hji : j = i
      · subst hji
        obtain rfl : t₁ = ⟨b, some p⟩ := Option.some.inj (ht₁.symm.trans hj)
        exact ⟨t₂, List.getElem?_set_self hi, hb.trans hact, fun hnone => nomatch hgiven hnone⟩
      · exact ⟨t₁, by rw [List.getElem?_set_ne hji]; exact ht₁, hact, hgiven⟩
    cases step with
    | begin b free =>
      exact ⟨t₁, by rw [List.getElem?_append_left hi]; exact ht₁, hact, hgiven⟩
    | answer answers =>
      obtain ⟨next, hasks, htasks⟩ := answers.asks
      rw [htasks]
      exact moved hasks rfl
    | abandon j b p runs request => exact moved runs rfl
    | drift d kept bounded => exact ⟨t₁, ht₁, hact, hgiven⟩

/-- What is left of a task follows from its program and its exchanges. -/
theorem Reachable.follows (h : Reachable s w) {p : Program a.Result}
    (hp : w.tasks[i]? = some ⟨a, some p⟩) : (a.program s).Follows (history w.trace i) p := by
  revert i a
  refine h.induction (P := fun w => ∀ {i : Nat} {a : Activity} {p : Program a.Result},
    w.tasks[i]? = some ⟨a, some p⟩ → (a.program s).Follows (history w.trace i) p) ?_ ?_
  · intro now capacity chat engine entropy i a p hp
    simp [start] at hp
  · intro w w' hw ih step i a p hp
    cases step with
    | begin b free =>
      rcases task_of_append hp with hp | ⟨rfl, ht⟩
      · exact ih hp
      · cases ht
        change (a.program s).Follows (history w.trace _) _
        rw [hw.history_of_le (Nat.le_refl _)]
        exact .start
    | @answer _ j b e answers =>
      cases answers with
      | intro q next asks fresh =>
        rcases task_of_set hp with ⟨rfl, ht⟩ | ⟨hji, hp⟩
        · cases ht
          rw [trace_turn, history_cons_self]
          exact (ih asks).answer _
        · rw [trace_turn, history_cons_ne _ _ hji]
          exact ih hp
    | abandon j b r runs request =>
      rcases task_of_set hp with ⟨_, ht⟩ | ⟨_, hp⟩
      · cases ht
      · exact ih hp
    | drift d kept bounded => exact ih hp

/-- A task asks only what it may ask after what it has been answered. -/
theorem Reachable.ensures (h : Reachable s w) {p : Program a.Result}
    (hp : w.tasks[i]? = some ⟨a, some p⟩) :
    p.Ensures (a.Warrants s) (a.Concludes s) (history w.trace i) :=
  (h.follows hp).ensures (Activity.ensures_program s a)

theorem Reachable.warrants (h : Reachable s w) (ha : w.Answers i a e w') :
    a.Warrants s (history w.trace i) e.question := by
  cases ha with
  | intro q next asks fresh => exact (Program.ensures_ask.mp (h.ensures asks)).1

/-- Only at its beginning an activity draws an identifier. -/
theorem Reachable.fresh (h : Reachable s w) {q : Question} {next : q.Answer → Program a.Result}
    (hp : w.tasks[i]? = some ⟨a, some (.ask q next)⟩)
    (hfresh : ∀ draft, a = .create draft → history w.trace i = [] →
      w.Fresh ⟨.octets Meeting.Identifier.size,
        (w.deployment.handle (.octets Meeting.Identifier.size)).1⟩) :
    w.Fresh ⟨q, (w.deployment.handle q).1⟩ := by
  by_cases hq : q = .octets Meeting.Identifier.size
  · subst hq
    have hw := (Program.ensures_ask.mp (h.ensures hp)).1
    cases a with
    | create draft => exact hfresh draft rfl (hw rfl)
    | _ => exact hw.elim
  · exact fresh_of_ne hq

/-- A task that has its turns one after the other comes to the end of any beginning of its program,
provided that the identifier is fresh that it may have to draw. -/
theorem Reachable.exists_steps_run {β : Type} {q : Program β} {f : β → Program a.Result}
    (h : Reachable s w) (hp : w.tasks[i]? = some ⟨a, some (q >>= f)⟩)
    (hfresh : ∀ draft, a = .create draft → history w.trace i = [] →
      w.Fresh ⟨.octets Meeting.Identifier.size,
        (w.deployment.handle (.octets Meeting.Identifier.size)).1⟩) :
    ∃ w', Steps s w w' ∧ w'.deployment = (w.deployment.run q).2 ∧
      w'.tasks = w.tasks.set i ⟨a, some (f (w.deployment.run q).1)⟩ := by
  induction q generalizing w with
  | done r =>
    refine ⟨w, .refl w, rfl, ?_⟩
    obtain ⟨hi, ht⟩ := List.getElem?_eq_some_iff.mp hp
    exact (ht ▸ List.set_getElem_self hi).symm
  | ask q next ih =>
    have hstep : Step s w (w.turn i a q fun answer => next answer >>= f) :=
      .answer (.intro q _ hp (h.fresh hp hfresh))
    have hi := (List.getElem?_eq_some_iff.mp hp).1
    have hrest : history (w.turn i a q fun answer => next answer >>= f).trace i ≠ [] := by
      rw [trace_turn, history_cons_self]
      exact List.cons_ne_nil _ _
    obtain ⟨w', hsteps, hd, ht⟩ := ih _ (h.steps (.single hstep)) (List.getElem?_set_self hi)
      fun _ _ hnil => absurd hnil hrest
    refine ⟨w', (Steps.single hstep).trans hsteps, hd, ?_⟩
    rw [ht, tasks_turn, List.set_set]
    rfl

/-- An activity that begins now and has its turns one after the other comes to the end of any
beginning of its program. -/
theorem Reachable.exists_steps_begin {β : Type} {q : Program β} {f : β → Program a.Result}
    (h : Reachable s w) (hp : a.program s = q >>= f)
    (free : a.isEvent → ∀ t ∈ w.tasks, t.activity.isEvent → t.Finished)
    (hfresh : ∀ draft, a = .create draft →
      w.Fresh ⟨.octets Meeting.Identifier.size,
        (w.deployment.handle (.octets Meeting.Identifier.size)).1⟩) :
    ∃ w', Steps s w w' ∧ w'.deployment = (w.deployment.run q).2 ∧
      w'.tasks = w.tasks ++ [⟨a, some (f (w.deployment.run q).1)⟩] := by
  have hbegin : Step s w _ := .begin w a free
  obtain ⟨w', hsteps, hd, ht⟩ := (h.steps (.single hbegin)).exists_steps_run (i := w.tasks.length)
    (q := q) (f := f) (by simp [Task.start, hp]) fun draft ha _ => hfresh draft ha
  refine ⟨w', (Steps.single hbegin).trans hsteps, hd, ?_⟩
  rw [ht, List.set_append_right _ _ (Nat.le_refl _)]
  simp

theorem Reachable.eq_of_draws (h : Reachable s w) {x y : Entry} (hx : x ∈ w.trace)
    (hy : y ∈ w.trace) {id : String} (hxid : x.exchange.Draws id) (hyid : y.exchange.Draws id) :
    x = y := by
  revert x y
  refine h.record (P := fun _ trace => ∀ {x y : Entry}, x ∈ trace → y ∈ trace →
    x.exchange.Draws id → y.exchange.Draws id → x = y) (by simp) ?_
  intro w w' i a e hw ih ans x y hx hy hxid hyid
  rw [ans.trace] at hx hy
  rcases List.mem_cons.mp hx with rfl | hx
  · rcases List.mem_cons.mp hy with rfl | hy
    · rfl
    · exact absurd hyid (ans.fresh id hxid y hy)
  · rcases List.mem_cons.mp hy with rfl | hy
    · exact absurd hxid (ans.fresh id hyid x hx)
    · exact ih hx hy hxid hyid

theorem Reachable.of_created (h : Reachable s w) {m : Meeting} (ha : w.Answers i a (created m) w') :
    (∃ d url now, m = .ofDraft d m.id url now s.defaultTtl) ∧ (∀ n, ⟨i, created n⟩ ∉ w.trace) ∧
      ∃ e', ⟨i, e'⟩ ∈ w.trace ∧ e'.Draws m.id := by
  have hw := h.warrants ha
  cases a with
  | create draft =>
    obtain ⟨octets, nonce, now, d, url, hpast, rfl⟩ := hw
    refine ⟨⟨d, url, now, rfl⟩, ?_, ⟨.octets Meeting.Identifier.size, some octets⟩, ?_,
      .intro octets⟩
    · intro n hn
      have hn := mem_history.mpr hn
      rw [hpast] at hn
      simp [created] at hn
    · refine mem_history.mp ?_
      rw [hpast]
      simp
  | _ => exact hw.elim

theorem Reachable.draws_of_created (h : Reachable s w) {m : Meeting}
    (hm : ⟨i, created m⟩ ∈ w.trace) : ∃ e, ⟨i, e⟩ ∈ w.trace ∧ e.Draws m.id := by
  obtain ⟨w₀, a, w₁, hw₀, hans, hsteps⟩ := h.moment_of_mem hm
  obtain ⟨_, _, e, he, hid⟩ := hw₀.of_created hans
  exact ⟨e, (hans.steps.trans hsteps).mem_trace he, hid⟩

/-- An identifier is that of one meeting at most. -/
theorem Reachable.fresh_of_created (h : Reachable s w) {m : Meeting}
    (ha : w.Answers i a (created m) w') {x : Entry} (hx : x ∈ w.trace) {n : Meeting}
    (hn : x.exchange = created n) : n.id ≠ m.id := by
  intro hid
  obtain ⟨j, e⟩ := x
  subst hn
  obtain ⟨_, honce, e, he, hdraws⟩ := h.of_created ha
  obtain ⟨e', he', hdraws'⟩ := h.draws_of_created hx
  have heq := h.eq_of_draws he he' hdraws (hid ▸ hdraws')
  cases heq
  exact honce n hx

theorem Reachable.eq_of_created (h : Reachable s w) {x y : Entry} (hx : x ∈ w.trace)
    (hy : y ∈ w.trace) {m n : Meeting} (hm : x.exchange = created m) (hn : y.exchange = created n)
    (hid : m.id = n.id) : x = y := by
  revert x y
  refine h.record (P := fun _ trace => ∀ {x y : Entry}, x ∈ trace → y ∈ trace →
    x.exchange = created m → y.exchange = created n → x = y) (by simp) ?_
  intro w w' i a e hw ih ans x y hx hy hm hn
  rw [ans.trace] at hx hy
  rcases List.mem_cons.mp hx with rfl | hx'
  · rcases List.mem_cons.mp hy with rfl | hy'
    · rfl
    · cases hm
      exact absurd hid.symm (hw.fresh_of_created ans hy' hn)
  · rcases List.mem_cons.mp hy with rfl | hy'
    · cases hn
      exact absurd hid (hw.fresh_of_created ans hx' hm)
    · exact ih hx' hy' hm hn

theorem Reachable.keyed (h : Reachable s w) : w.deployment.memory.Keyed := by
  refine h.induction (P := fun w => w.deployment.memory.Keyed) (fun _ _ _ _ _ => List.nodup_nil) ?_
  intro w w' _ ih step
  cases step with
  | answer answers =>
    cases answers with
    | intro q next asks fresh => exact Deployment.keyed_handle ih q
  | drift d kept bounded =>
    change (d.memory.meetings.map Meeting.id).Nodup
    rw [kept]
    exact ih
  | _ => exact ih

/-- What has been read was stored then. -/
theorem Reachable.moment_of_read (h : Reachable s w) {id : String} {m : Meeting}
    (hm : ⟨i, .store (.get id), .ok m⟩ ∈ w.trace) :
    m.id = id ∧ ∃ w₀, Reachable s w₀ ∧ m ∈ w₀.meetings ∧ Steps s w₀ w := by
  obtain ⟨w₀, a, w₁, hw₀, hans, hsteps⟩ := h.moment_of_mem hm
  obtain ⟨hid, hmem⟩ := Deployment.of_handle_get hans.answer_eq
  exact ⟨hid, w₀, hw₀, hmem, hans.steps.trans hsteps⟩

end Rendezvous.System
