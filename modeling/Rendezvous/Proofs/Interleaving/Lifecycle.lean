import Rendezvous.Proofs.Interleaving.Past
import Rendezvous.Proofs.Token.Redemption

namespace Rendezvous

namespace Meeting

/-- What may become of a meeting while it is stored. -/
structure Evolves (m n : Meeting) : Prop where
  id : n.id = m.id
  domainId : n.domainId = m.domainId
  title : n.title = m.title
  createdAt : n.createdAt = m.createdAt
  expiresAt : n.expiresAt = m.expiresAt
  metadata : n.metadata = m.metadata
  url : n.url = m.url
  call : m.callId.isSome → n.callId = m.callId ∧ n.bridged = m.bridged
  answered : m.satisfaction.isSome → n.satisfaction.isSome

theorem Evolves.refl (m : Meeting) : m.Evolves m :=
  ⟨rfl, rfl, rfl, rfl, rfl, rfl, rfl, fun _ => ⟨rfl, rfl⟩, fun h => h⟩

theorem Evolves.trans {l m n : Meeting} (h : l.Evolves m) (h' : m.Evolves n) : l.Evolves n where
  id := h'.id.trans h.id
  domainId := h'.domainId.trans h.domainId
  title := h'.title.trans h.title
  createdAt := h'.createdAt.trans h.createdAt
  expiresAt := h'.expiresAt.trans h.expiresAt
  metadata := h'.metadata.trans h.metadata
  url := h'.url.trans h.url
  call hl := by
    obtain ⟨hc, hb⟩ := h.call hl
    obtain ⟨hc', hb'⟩ := h'.call (hc ▸ hl)
    exact ⟨hc'.trans hc, hb'.trans hb⟩
  answered hl := h'.answered (h.answered hl)

structure Coherent (m : Meeting) : Prop where
  of_bridged : m.bridged → m.callId.isSome
  of_answered : m.satisfaction.isSome → m.bridged ∧ m.callId.isSome

theorem toInt_saturatingAdd (a b : Int64) : (saturatingAdd a b).toInt =
    max Int64.minValue.toInt (min Int64.maxValue.toInt (a.toInt + b.toInt)) := by
  have hlow : Int64.minValue.toInt = -2 ^ 63 := by decide
  have hhigh : Int64.maxValue.toInt = 2 ^ 63 - 1 := by decide
  unfold saturatingAdd
  dsimp only
  split
  · omega
  · split
    · omega
    · rw [Int64.toInt_ofInt_of_le (by omega) (by omega)]
      omega

/-- A meeting is given some time to live if the default is some. -/
theorem toInt_ttl_pos (requestedTtl : Int64) {defaultTtl : Int64} (h : 0 < defaultTtl) :
    0 < (if requestedTtl ≤ 0 then defaultTtl else requestedTtl).toInt := by
  split
  · exact Int64.lt_iff_toInt_lt.mp h
  · next hr =>
    rw [Int64.le_iff_toInt_le] at hr
    simpa using hr

/-- A meeting expires after its creation, unless that was at the end of time. -/
theorem lt_expiry (createdAt requestedTtl : Int64) {defaultTtl : Int64} (h : 0 < defaultTtl) :
    createdAt < expiry createdAt requestedTtl defaultTtl ∨
      createdAt = Int64.maxValue ∧ expiry createdAt requestedTtl defaultTtl = Int64.maxValue := by
  have hhigh : Int64.maxValue.toInt = 2 ^ 63 - 1 := by decide
  have hlow : Int64.minValue.toInt = -2 ^ 63 := by decide
  have hle := createdAt.toInt_lt
  have hge := createdAt.le_toInt
  have hpos := toInt_ttl_pos requestedTtl h
  unfold expiry
  simp only [Int64.lt_iff_toInt_lt, ← Int64.toInt_inj, toInt_saturatingAdd]
  omega

theorem coherent_ofDraft (d : Draft) (id url : String) (now defaultTtl : Int64) :
    (ofDraft d id url now defaultTtl).Coherent :=
  ⟨by simp [ofDraft], by simp [ofDraft]⟩

end Meeting

theorem Service.of_surveyedCall {m : Meeting} {callId : String}
    (h : Service.surveyedCall m = .ok callId) :
    m.callId = some callId ∧ m.bridged ∧ m.satisfaction = none := by
  unfold Service.surveyedCall at h
  split at h
  · cases h
  · next c hcall hsat =>
    by_cases hb : m.bridged
    · rw [if_pos hb] at h
      cases h
      exact ⟨hcall, hb, hsat⟩
    · rw [if_neg hb] at h
      cases h
  · cases h

theorem Service.allowsSatisfaction_of_surveyedCall {m : Meeting} {callId : String}
    (h : Service.surveyedCall m = .ok callId) : m.allowsSatisfaction := by
  obtain ⟨called, bridged, unanswered⟩ := Service.of_surveyedCall h
  simp [Meeting.allowsSatisfaction, called, bridged, unanswered]

namespace Exchange

variable {e : Exchange} {m : Meeting}

/-- A meeting evolves unless the exchange notes a second call in it. -/
theorem evolves_effect (h : ∀ id callId bridged, e.question = .store (.setCall id callId bridged) →
    m.id = id → m.callId = none) : m.Evolves (e.effect m) := by
  unfold effect
  split
  · next id callId bridged _ =>
    by_cases hid : m.id = id
    · have hnone := h id callId bridged rfl hid
      rw [if_pos hid]
      exact ⟨rfl, rfl, rfl, rfl, rfl, rfl, rfl, by simp [hnone], fun h => h⟩
    · rw [if_neg hid]
      exact .refl m
  · next id value _ =>
    by_cases hid : m.id = id
    · rw [if_pos hid]
      exact ⟨rfl, rfl, rfl, rfl, rfl, rfl, rfl, fun _ => ⟨rfl, rfl⟩, fun _ => rfl⟩
    · rw [if_neg hid]
      exact .refl m
  · exact .refl m

/-- A meeting stays coherent if a call is noted only where there is none and an answer only where a
call has connected. -/
theorem coherent_effect (hm : m.Coherent)
    (hcall : ∀ id callId bridged, e.question = .store (.setCall id callId bridged) →
      m.id = id → m.callId = none)
    (hanswer : ∀ id value, e.question = .store (.setSatisfaction id value) →
      m.id = id → m.bridged ∧ m.callId.isSome) : (e.effect m).Coherent := by
  unfold effect
  split
  · next id callId bridged _ =>
    by_cases hid : m.id = id
    · have hnone := hcall id callId bridged rfl hid
      have hunanswered : ¬m.satisfaction.isSome := by
        intro hs
        have := (hm.of_answered hs).2
        simp [hnone] at this
      rw [if_pos hid]
      exact ⟨fun _ => rfl, fun hs => absurd hs hunanswered⟩
    · rw [if_neg hid]
      exact hm
  · next id value _ =>
    by_cases hid : m.id = id
    · rw [if_pos hid]
      exact ⟨hm.of_bridged, fun _ => hanswer id value rfl hid⟩
    · rw [if_neg hid]
      exact hm
  · exact hm

end Exchange

namespace System

open Exchange

variable {s : Service} {w w' : System} {i j : Nat} {a : Activity} {e : Exchange}

def Handles (w : System) (i : Nat) : Prop :=
  ∃ t, w.tasks[i]? = some t ∧ t.activity.isEvent ∧ ¬t.Finished

theorem Answers.handles_self (h : w.Answers i a e w') (ha : a.isEvent) : w.Handles i := by
  cases h with
  | intro q next asks fresh =>
    refine ⟨_, asks, ha, ?_⟩
    rintro ⟨r, hr⟩
    cases hr

theorem Answers.handles (h : w.Answers j a e w') (hi : w'.Handles i) : w.Handles i := by
  have hself := h.handles_self
  obtain ⟨t, ht, hevent, hopen⟩ := hi
  cases h with
  | intro q next asks fresh =>
    rcases task_of_set ht with ⟨rfl, rfl⟩ | ⟨_, ht⟩
    · exact hself hevent
    · exact ⟨t, ht, hevent, hopen⟩

/-- Who handles an event has done so before, or nobody has. -/
theorem Step.handles (h : Step s w w') (hi : w'.Handles i) :
    w.Handles i ∨ i = w.tasks.length ∧ ∀ j, ¬w.Handles j := by
  cases h with
  | answer answers => exact .inl (answers.handles hi)
  | drift d kept bounded => exact .inl hi
  | begin b free =>
    obtain ⟨t, ht, hevent, hopen⟩ := hi
    rcases task_of_append ht with ht | ⟨rfl, rfl⟩
    · exact .inl ⟨t, ht, hevent, hopen⟩
    · refine .inr ⟨rfl, ?_⟩
      rintro j ⟨u, hu, huevent, huopen⟩
      exact huopen (free hevent u (List.mem_of_getElem? hu) huevent)
  | abandon j b p runs request =>
    obtain ⟨t, ht, hevent, hopen⟩ := hi
    rcases task_of_set ht with ⟨rfl, rfl⟩ | ⟨_, ht⟩
    · cases b <;> simp_all [Activity.isEvent, Activity.isRequest]
    · exact .inl ⟨t, ht, hevent, hopen⟩

/-- One event is handled at a time. -/
theorem Reachable.eq_of_handles (h : Reachable s w) (hi : w.Handles i) (hj : w.Handles j) :
    i = j := by
  revert i j
  refine h.induction (P := fun w => ∀ {i j}, w.Handles i → w.Handles j → i = j) ?_ ?_
  · rintro now capacity chat engine entropy i j ⟨t, ht, _⟩
    cases ht
  · intro w w' _ ih step i j hi hj
    rcases step.handles hi with hi | ⟨rfl, hfree⟩
    · rcases step.handles hj with hj | ⟨_, hfree⟩
      · exact ih hi hj
      · exact absurd hi (hfree i)
    · rcases step.handles hj with hj | ⟨rfl, _⟩
      · exact absurd hj (hfree j)
      · rfl

theorem Reachable.isEvent_of_notesCall (h : Reachable s w) (ha : w.Answers i a e w')
    (he : e.NotesCall) : a.isEvent := by
  have hw := h.warrants ha
  obtain ⟨id, callId, bridged, hq⟩ := he
  rw [hq] at hw
  cases a with
  | event payload => rfl
  | _ => exact hw.elim

/-- Until it notes a call, an event that has found a meeting without a call leaves it so, and nobody
else notes one. -/
theorem Reachable.uncalled (h : Reachable s w) (hi : w.Handles i) {id : String} {m : Meeting}
    (hread : ⟨.store (.get id), .ok m⟩ ∈ history w.trace i) (hm : m.callId = none)
    (hnotes : ∀ e ∈ history w.trace i, ¬e.NotesCall) {n : Meeting} (hn : n ∈ w.meetings)
    (hid : n.id = id) : n.callId = none := by
  revert n
  refine h.induction (P := fun w => w.Handles i → ⟨.store (.get id), .ok m⟩ ∈ history w.trace i →
    (∀ e ∈ history w.trace i, ¬e.NotesCall) → ∀ {n : Meeting}, n ∈ w.meetings → n.id = id →
    n.callId = none) ?_ ?_ hi hread hnotes
  · intro now capacity chat engine entropy _ hread
    cases hread
  · intro w w' hw ih step hi hread hnotes n hn hid
    have same : w'.trace = w.trace → w'.meetings = w.meetings → n.callId = none := by
      intro htrace hmeetings
      rw [htrace] at hread hnotes
      rw [hmeetings] at hn
      rcases step.handles hi with hi | ⟨rfl, _⟩
      · exact ih hi hread hnotes hn hid
      · rw [hw.history_of_le (Nat.le_refl _)] at hread
        cases hread
    cases step with
    | drift d kept bounded => exact same rfl kept
    | begin b free => exact same rfl rfl
    | abandon j b p runs request => exact same rfl rfl
    | @answer _ j b e answers =>
      have hi := answers.handles hi
      -- an entry that notes a call would be of the same task, which has noted none
      have hquiet : ¬e.NotesCall := by
        intro he
        have hj := answers.handles_self (hw.isEvent_of_notesCall answers he)
        have hij := hw.eq_of_handles hi hj
        subst hij
        refine hnotes e ?_ he
        rw [answers.trace, history_cons_self]
        exact List.mem_cons_self
      rcases answers.mem_meetings hn with ⟨n, hn₀, rfl⟩ | rfl
      · rw [callId_effect hquiet]
        rw [id_effect] at hid
        by_cases hij : i = j
        · subst hij
          rw [answers.trace, history_cons_self] at hread hnotes
          rcases List.mem_cons.mp hread with rfl | hread
          · obtain ⟨hmid, hmem⟩ := Deployment.of_handle_get answers.answer_eq
            rw [hw.keyed.eq hn₀ hmem (hid.trans hmid.symm)]
            exact hm
          · exact ih hi hread (fun e he => hnotes e (List.mem_cons_of_mem _ he)) hn₀ hid
        · rw [answers.trace, history_cons_ne _ _ (Ne.symm hij)] at hread hnotes
          exact ih hi hread hnotes hn₀ hid
      · obtain ⟨⟨d, url, now, hd⟩, _⟩ := hw.of_created answers
        rw [hd]
        rfl

/-- When a call is about to be noted, none is. -/
theorem Reachable.uncalled_of_answers (h : Reachable s w) (ha : w.Answers i a e w')
    {id callId : String} {bridged : Bool} (he : e.question = .store (.setCall id callId bridged))
    {n : Meeting} (hn : n ∈ w.meetings) (hid : n.id = id) : n.callId = none := by
  have hevent := h.isEvent_of_notesCall ha ⟨id, callId, bridged, he⟩
  have hw := h.warrants ha
  rw [he] at hw
  cases a with
  | event payload =>
    obtain ⟨m, now, hpast, hm⟩ := hw
    have hread : ⟨.store (.get id), .ok m⟩ ∈ history w.trace i := by
      rw [hpast]
      simp [found]
    refine h.uncalled (ha.handles_self hevent) hread hm ?_ hn hid
    rw [hpast]
    simp [found, NotesCall]
  | _ => exact hw.elim

theorem Reachable.evolves_effect (h : Reachable s w) (ha : w.Answers i a e w') {n : Meeting}
    (hn : n ∈ w.meetings) : n.Evolves (e.effect n) :=
  Exchange.evolves_effect fun _ _ _ he hid => h.uncalled_of_answers ha he hn hid

/-- What is stored has been created, and has evolved since. -/
theorem Reachable.origin (h : Reachable s w) {m : Meeting} (hm : m ∈ w.meetings) :
    ∃ i m₀, ⟨i, created m₀⟩ ∈ w.trace ∧ m₀.Evolves m := by
  revert m
  refine h.record (P := fun meetings trace => ∀ {m}, m ∈ meetings →
    ∃ i m₀, ⟨i, created m₀⟩ ∈ trace ∧ m₀.Evolves m) (by simp) ?_
  intro w w' i a e hw ih ans m hm
  rw [ans.trace]
  rcases ans.mem_meetings hm with ⟨n, hn, rfl⟩ | rfl
  · obtain ⟨j, m₀, hmem, hev⟩ := ih hn
    exact ⟨j, m₀, List.mem_cons_of_mem _ hmem, hev.trans (hw.evolves_effect ans hn)⟩
  · exact ⟨i, m, List.mem_cons_self, .refl m⟩

/-- A meeting that is stored at two times has evolved from the one to the other. -/
theorem Reachable.evolves (h : Reachable s w) (h' : Steps s w w') {m n : Meeting}
    (hm : m ∈ w.meetings) (hn : n ∈ w'.meetings) (hid : n.id = m.id) : m.Evolves n := by
  obtain ⟨i, m₀, hcreated, hev⟩ := h.origin hm
  induction h' generalizing n with
  | refl => exact h.keyed.eq hm hn hid.symm ▸ .refl m
  | @tail w₁ w₂ hsteps step ih =>
    have hw₁ := h.steps hsteps
    cases step with
    | drift d kept bounded =>
      rw [meetings, kept] at hn
      exact ih hn hid
    | begin b free => exact ih hn hid
    | abandon j b p runs request => exact ih hn hid
    | answer answers =>
      rcases answers.mem_meetings hn with ⟨n, hn', rfl⟩ | rfl
      · rw [id_effect] at hid
        exact (ih hn' hid).trans (hw₁.evolves_effect answers hn')
      · -- its identifier is taken: the other meeting was created before
        have := hw₁.fresh_of_created answers (hsteps.mem_trace hcreated) rfl
        exact absurd (hev.id.symm.trans hid.symm) this

/-- What has been read may have evolved since. -/
theorem Reachable.evolves_of_read (h : Reachable s w) {id : String} {m n : Meeting}
    (hm : ⟨i, .store (.get id), .ok m⟩ ∈ w.trace) (hn : n ∈ w.meetings) (hid : n.id = id) :
    m.id = id ∧ m.Evolves n := by
  obtain ⟨hmid, w₀, hw₀, hmem, hsteps⟩ := h.moment_of_read hm
  exact ⟨hmid, hw₀.evolves hsteps hmem hn (hid.trans hmid.symm)⟩

theorem Reachable.coherent (h : Reachable s w) {m : Meeting} (hm : m ∈ w.meetings) :
    m.Coherent := by
  revert m
  refine h.record (P := fun meetings _ => ∀ {m}, m ∈ meetings → m.Coherent) (by simp) ?_
  intro w w' i a e hw ih ans m hm
  rcases ans.mem_meetings hm with ⟨n, hn, rfl⟩ | rfl
  · refine coherent_effect (ih hn) ?_ ?_
    · intro id callId bridged he hid
      exact hw.uncalled_of_answers ans he hn hid
    · -- who notes an answer has read that a call had connected, and so it is now
      intro id value he hid
      have hwarrants := hw.warrants ans
      rw [he] at hwarrants
      cases a with
      | submit token answer =>
        obtain ⟨m, now, callId, hpast, admitted⟩ := hwarrants
        have hread : ⟨i, .store (.get id), .ok m⟩ ∈ w.trace := by
          refine mem_history.mp ?_
          rw [hpast]
          simp [found]
        obtain ⟨_, hev⟩ := hw.evolves_of_read hread hn hid
        obtain ⟨hcall, hbridged, _⟩ := Service.of_surveyedCall admitted.surveyed
        obtain ⟨hc, hb⟩ := hev.call (by simp [hcall])
        exact ⟨hb.trans hbridged, by simp [hc, hcall]⟩
      | _ => exact hwarrants.elim
  · obtain ⟨⟨d, url, now, hd⟩, _⟩ := hw.of_created ans
    rw [hd]
    exact Meeting.coherent_ofDraft d _ url now _

/-- What is stored was created, once, with nothing noted in it; it has evolved since, and between
any two times; its notes fit together, and it expires after its creation. -/
theorem meetings_evolve (h : Reachable s w) (h' : Steps s w w') {m : Meeting}
    (hm : m ∈ w'.meetings) :
    (∃ x ∈ w'.trace, ∃ d url now,
      x.exchange = created (.ofDraft d m.id url now s.defaultTtl) ∧
      (Meeting.ofDraft d m.id url now s.defaultTtl).Evolves m ∧
      ∀ y ∈ w'.trace, ∀ n, y.exchange = created n → n.id = m.id → y = x) ∧
    (∀ l ∈ w.meetings, l.id = m.id → l.Evolves m) ∧
    m.Coherent ∧
    (0 < s.defaultTtl →
      m.createdAt < m.expiresAt ∨ m.createdAt = Int64.maxValue ∧ m.expiresAt = Int64.maxValue) := by
  have hw' := h.steps h'
  obtain ⟨i, m₀, hcreated, hev⟩ := hw'.origin hm
  obtain ⟨w₀, a, w₁, hw₀, hans, _⟩ := hw'.moment_of_mem hcreated
  obtain ⟨⟨d, url, now, hd⟩, _⟩ := hw₀.of_created hans
  rw [← hev.id] at hd
  subst hd
  refine ⟨⟨_, hcreated, d, url, now, rfl, hev, ?_⟩, ?_, hw'.coherent hm, ?_⟩
  · intro y hy n hn hid
    exact hw'.eq_of_created hy hcreated hn rfl hid
  · intro l hl hid
    exact h.evolves h' hl hm hid.symm
  · intro hpos
    rw [hev.createdAt, hev.expiresAt]
    exact Meeting.lt_expiry now d.ttl hpos

namespace Sample

def service : Service := ⟨.ofSecret (Text.Utf8.encode "secret"), "memory", Meeting.defaultTtl⟩

def draft : Meeting.Draft := ⟨1, "title", 60, "/m", .empty⟩

def id : String := "AAAAAAAAAAAAAAAAAAAAA"

def token (s : Service) : String := s.cipher.issue (Vector.replicate _ 0) id

theorem redeem_token (s : Service) : s.cipher.redeem (token s) = .ok id := s.cipher.redeem_issue _ id

theorem tidyAnswer_good : Meeting.tidyAnswer "good" = .ok "good" := by decide +kernel

def meeting (s : Service) (now : Int64) : Meeting :=
  .ofDraft draft id ("/m/" ++ token s) now s.defaultTtl

def called (s : Service) : Meeting := { meeting s 0 with callId := some "c", bridged := true }

def payload : List UInt8 :=
  Text.Utf8.encode
    "\x7b\"id\":\"c\",\"bridged_at\":1,\"data\":\x7b\"meeting_id\":\"AAAAAAAAAAAAAAAAAAAAA\"\x7d\x7d"

/-- A deployment in which everything works and always the same is drawn. -/
def calm (now : Int64) (meetings : List Meeting) : Deployment :=
  { Deployment.start now 1 .accepting .accepting ⟨fun _ n => some (Vector.replicate n 0), 0⟩ with
    memory := ⟨1, meetings, .empty⟩ }

theorem ofPayload_payload :
    Call.Hangup.ofPayload payload = .ok ⟨"c", "", 1, ⟨none, some id⟩⟩ := by
  have h : (Call.Hangup.ofPayload payload).toOption = some ⟨"c", "", 1, ⟨none, some id⟩⟩ := by
    decide +kernel
  cases hp : Call.Hangup.ofPayload payload <;> simp_all [Except.toOption]

theorem resolve_id (s : Service) : s.resolve id = pure id := by
  have hid : Meeting.Identifier.isIdentifier id := by decide +kernel
  have hnone : (Token.decode id).toOption = none := by decide +kernel
  unfold Service.resolve
  cases h : Token.decode id with
  | ok raw => simp [h, Except.toOption] at hnone
  | error fault =>
    rw [s.cipher.redeem_of_decode_error h]
    simp [hid]

end Sample

open Sample in
theorem exists_created (s : Service) (now : Int64) :
    ∃ w, Reachable s w ∧ w.deployment.memory.capacity = 1 ∧ w.meetings = [meeting s now] ∧
      ∀ t ∈ w.tasks, ¬t.activity.isEvent := by
  have h : Reachable s ⟨calm now [], [], []⟩ := ⟨now, 1, _, _, _, .refl _⟩
  obtain ⟨w, hsteps, hd, ht⟩ := h.exists_steps_begin (a := .create draft) (f := .done)
    (Program.bind_done _).symm (fun h => nomatch h) (fun _ _ _ _ x hx => nomatch hx)
  refine ⟨w, h.steps hsteps, ?_, ?_, ?_⟩
  · rw [hd]
    rfl
  · rw [meetings, hd]
    rfl
  · rw [ht]
    simp [Activity.isEvent]

open Sample in
theorem exists_called (s : Service) :
    ∃ w w', Reachable s w ∧ Steps s w w' ∧ w.meetings = [meeting s 0] ∧
      w'.deployment.memory.capacity = 1 ∧ w'.meetings = [called s] := by
  obtain ⟨w, hw, hcap, hm, hevents⟩ := exists_created s 0
  have hdrift : Step s w { w with deployment := calm 0 [meeting s 0] } :=
    .drift w _ hm.symm hcap.symm
  obtain ⟨w', hsteps, hd, _⟩ := (hw.steps (.single hdrift)).exists_steps_begin
    (a := .event payload) (f := .done) (Program.bind_done _).symm
    (fun _ t ht hev => absurd hev (hevents t ht)) (fun _ h => nomatch h)
  have hrun : ((calm 0 [meeting s 0]).run (s.takeEvent payload)).2.memory =
      ⟨1, [called s], .empty⟩ := by
    unfold Service.takeEvent Service.takeHangup Service.attachCall
    simp only [ofPayload_payload, resolve_id]
    rfl
  refine ⟨w, w', hw, (Steps.single hdrift).trans hsteps, hm, ?_, ?_⟩
  · rw [hd]
    exact congrArg Store.Memory.capacity hrun
  · rw [meetings, hd]
    exact congrArg Store.Memory.meetings hrun

open Sample in
theorem called_evolves : ∃ w w', Reachable service w ∧ Steps service w w' ∧
    meeting service 0 ∈ w.meetings ∧ called service ∈ w'.meetings ∧
    (meeting service 0).Evolves (called service) ∧ (called service).Coherent ∧
    (called service).createdAt < (called service).expiresAt := by
  obtain ⟨w, w', hw, hsteps, hm, _, hm'⟩ := exists_called service
  have hmem : meeting service 0 ∈ w.meetings := by simp [hm]
  have hmem' : called service ∈ w'.meetings := by simp [hm']
  obtain ⟨_, hevolves, hcoherent, hexpiry⟩ := meetings_evolve hw hsteps hmem'
  refine ⟨w, w', hw, hsteps, hmem, hmem', hevolves _ hmem rfl, hcoherent, ?_⟩
  rcases hexpiry (by decide) with hlt | ⟨hend, _⟩
  · exact hlt
  · exact absurd hend (by decide)

open Sample in
/-- A meeting that is created at the end of time expires at once. -/
theorem expired_at_end : ¬∀ (s : Service) (w : System), Reachable s w → 0 < s.defaultTtl →
    ∀ m ∈ w.meetings, m.createdAt < m.expiresAt := by
  intro h
  obtain ⟨w, hw, _, hm, _⟩ := exists_created service Int64.maxValue
  have hlt := h service w hw (by decide) (meeting service Int64.maxValue) (by simp [hm])
  exact absurd hlt (by decide)

end System

end Rendezvous
