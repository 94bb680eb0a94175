import Rendezvous.Deployment
import Rendezvous.Proofs.Interleaving.Contents
import Rendezvous.Proofs.Token.Redemption
import Rendezvous.Service.Background

namespace Rendezvous

open Store

section

variable {σ : Type} {handle : σ → (q : Question) → q.Answer × σ} {b b' : σ} {id : String}

theorem run_fetchVisible_of_error {fault : Fault}
    (h : handle b (.store (.get id)) = (.error fault, b')) :
    (Service.fetchVisible id).run.run handle b = (.error fault, b') := by
  change Program.run handle (.ask (.store (.get id)) _) b = _
  rw [Program.run, h]
  rfl

theorem run_fetchVisible_of_ok {m : Meeting} (h : handle b (.store (.get id)) = (.ok m, b')) :
    (Service.fetchVisible id).run.run handle b =
      (if m.isVisibleAt (handle b' .clock).1 then .ok m else .error .expired,
        (handle b' .clock).2) := by
  change Program.run handle (.ask (.store (.get id)) _) b = _
  rw [Program.run, h]
  change (if m.isVisibleAt (handle b' .clock).1 then pure m else throw Fault.expired :
    Action Meeting).run.run handle (handle b' .clock).2 = _
  by_cases hv : m.isVisibleAt (handle b' .clock).1
  · rw [if_pos hv, if_pos hv]
    rfl
  · rw [if_neg hv, if_neg hv]
    rfl

theorem run_closeChat_of_none (h : handle b (.store (.chatLink id)) = (.ok none, b')) :
    ((Service.closeChat id).run handle b).2 = b' := by
  change (Program.run handle (.ask (.store (.chatLink id)) _) b).2 = b'
  rw [Program.run, h]
  rfl

theorem run_closeChat_of_some {link : ChatLink}
    (h : handle b (.store (.chatLink id)) = (.ok (some link), b')) :
    ((Service.closeChat id).run handle b).2 = (handle b' (.closeChat link)).2 := by
  change (Program.run handle (.ask (.store (.chatLink id)) _) b).2 = _
  rw [Program.run, h]
  rfl

end

namespace Collaborator

variable {α : Type}

def callAll (c : Collaborator α) (as : List α) : Collaborator α :=
  as.foldl (fun c a => (c.call a).2) c

theorem callAll_append (c : Collaborator α) (as bs : List α) :
    c.callAll (as ++ bs) = (c.callAll as).callAll bs :=
  List.foldl_append

end Collaborator

namespace Deployment

def Healthy (d : Deployment) : Prop := ∀ kind, d.faults kind = none

/-- What the answer to each question keeps, a run keeps. -/
theorem run_induction {α : Type} {P : Deployment → Prop} (step : ∀ d q, P d → P (d.handle q).2)
    {d : Deployment} (h : P d) (p : Program α) : P (d.run p).2 := by
  induction p generalizing d with
  | done a => exact h
  | ask q next ih => exact ih _ (step d q h)

theorem run_bind {α β : Type} (d : Deployment) (p : Program α) (f : α → Program β) :
    d.run (p >>= f) = (d.run p).2.run (f (d.run p).1) :=
  Program.run_bind ..

section

variable {α β : Type} {d d' : Deployment} {a : Action α}

theorem run_bind_of_ok {f : α → Action β} {v : α} (h : d.run a.run = (.ok v, d')) :
    d.run (a >>= f).run = d'.run (f v).run := by
  unfold run at h ⊢
  rw [ExceptT.run_bind, Program.run_bind, h]

theorem run_bind_of_error {f : α → Action β} {fault : Fault}
    (h : d.run a.run = (.error fault, d')) : d.run (a >>= f).run = (.error fault, d') := by
  unfold run at h ⊢
  rw [ExceptT.run_bind, Program.run_bind, h]
  rfl

theorem run_tryCatch_of_ok {f : Fault → Action α} {v : α} (h : d.run a.run = (.ok v, d')) :
    d.run (tryCatch a f).run = (.ok v, d') := by
  change Program.run handle (a.run >>= _) d = _
  unfold run at h
  rw [Program.run_bind, h]
  rfl

theorem run_tryCatch_of_error {f : Fault → Action α} {fault : Fault}
    (h : d.run a.run = (.error fault, d')) :
    d.run (tryCatch a f).run = d'.run (f fault).run := by
  change Program.run handle (a.run >>= _) d = _
  unfold run at h
  rw [Program.run_bind, h]
  rfl

theorem run_store (d : Deployment) (op : Operation) :
    d.run (Action.store op).run = d.handle (.store op) := rfl

theorem run_lift (d : Deployment) (p : Program α) :
    d.run (ExceptT.lift p : Action α).run = (.ok (d.run p).1, (d.run p).2) := by
  unfold run
  rw [ExceptT.run_lift, map_eq_pure_bind, Program.run_bind]
  rfl

theorem run_ask_bind (d : Deployment) (q : Question) (f : q.Answer → Action β) :
    d.run (Action.ask q >>= f).run = (d.handle q).2.run (f (d.handle q).1).run := rfl

end

theorem Healthy.perform {d : Deployment} (h : d.Healthy) (op : Operation) : ∃ tally,
    d.handle (.store op) = ((d.memory.perform d.storeClock.now op).1,
      { d with memory := (d.memory.perform d.storeClock.now op).2, tally }) :=
  perform_of_healthy (h op.kind)

theorem Healthy.handle {d : Deployment} (h : d.Healthy) (q : Question) :
    (d.handle q).2.Healthy := by
  cases q with
  | store op =>
    obtain ⟨tally, hperform⟩ := h.perform op
    rw [hperform]
    exact h
  | _ => exact h

theorem keyed_run {α : Type} {d : Deployment} (h : d.memory.Keyed) (p : Program α) :
    (d.run p).2.memory.Keyed :=
  run_induction (P := fun d => d.memory.Keyed) (fun _ q h => keyed_handle h q) h p

theorem Healthy.run {α : Type} {d : Deployment} (h : d.Healthy) (p : Program α) :
    (d.run p).2.Healthy :=
  run_induction (fun _ q h => h.handle q) h p

end Deployment

namespace Meeting

theorem tidyText_of_filled {what s : String} {maxLength : Nat} (filled : Text.Blank.trim s ≠ "")
    (short : (Text.Blank.trim s).length ≤ maxLength) :
    tidyText what maxLength s = .ok (Text.Blank.trim s) :=
  (if_neg filled).trans (if_neg (Nat.not_lt.mpr short))

theorem of_tidyAnswer {answer value : String} (h : tidyAnswer answer = .ok value) :
    value = Text.Blank.trim answer ∧ value ≠ "" ∧ value.length ≤ maxAnswerLength := by
  unfold tidyAnswer tidyText at h
  by_cases hempty : Text.Blank.trim answer = ""
  · rw [if_pos hempty] at h
    cases h
  · rw [if_neg hempty] at h
    by_cases hlong : maxAnswerLength < (Text.Blank.trim answer).length
    · rw [if_pos hlong] at h
      cases h
    · rw [if_neg hlong] at h
      cases h
      exact ⟨rfl, hempty, Nat.not_lt.mp hlong⟩

theorem of_tidyAnswer_error {answer : String} {fault : Fault}
    (h : tidyAnswer answer = .error fault) : ∃ reason, fault = .badRequest reason := by
  unfold tidyAnswer tidyText at h
  dsimp only at h
  split at h
  · cases h
    exact ⟨_, rfl⟩
  · split at h
    · cases h
      exact ⟨_, rfl⟩
    · cases h

end Meeting

namespace Service

variable (s : Service) {d : Deployment}

def Resolves (reference id : String) : Prop :=
  s.cipher.redeem reference = .ok id ∨
    (∃ fault, s.cipher.redeem reference = .error fault) ∧
      Meeting.Identifier.isIdentifier reference ∧ id = reference

theorem Resolves.unique {s : Service} {reference id id' : String} (h : s.Resolves reference id)
    (h' : s.Resolves reference id') : id = id' := by
  rcases h with h | ⟨⟨f, h⟩, -, rfl⟩ <;> rcases h' with h' | ⟨⟨f', h'⟩, -, rfl⟩
  · exact Except.ok.inj (h.symm.trans h')
  · cases h.symm.trans h'
  · cases h.symm.trans h'
  · rfl

theorem exists_resolves {s : Service} {reference : String}
    (h : Meeting.Identifier.isIdentifier reference) : ∃ id, s.Resolves reference id := by
  cases hr : s.cipher.redeem reference with
  | ok id => exact ⟨id, .inl hr⟩
  | error fault => exact ⟨reference, .inr ⟨⟨fault, hr⟩, h, rfl⟩⟩

/-- Why a token is rejected is counted, and nothing else is told. -/
theorem run_reject {token : String} {fault : Token.Fault}
    (h : s.cipher.redeem token = .error fault) (d : Deployment) (α : Type) :
    ∃ reason, d.run (reject fault : Action α).run =
      (.error .invalidToken, d.count (.tokenRejected reason)) := by
  have kind := s.cipher.kind_redeem token
  rw [h] at kind
  cases kind with
  | noEncoding | short | noIdentifier => exact ⟨.malformed, rfl⟩
  | forged => exact ⟨.invalid, rfl⟩

theorem redeem_of_ok {token id : String} (h : s.cipher.redeem token = .ok id) :
    s.redeem token = pure id := by
  simp only [redeem, h]

theorem run_redeem_of_error {token : String} {fault : Token.Fault}
    (h : s.cipher.redeem token = .error fault) (d : Deployment) :
    ∃ reason, d.run (s.redeem token).run =
      (.error .invalidToken, d.count (.tokenRejected reason)) := by
  simpa only [redeem, h] using s.run_reject h d String

theorem resolve_of_resolves {reference id : String} (h : s.Resolves reference id) :
    s.resolve reference = pure id := by
  rcases h with h | ⟨⟨fault, h⟩, hid, rfl⟩
  · simp only [resolve, h]
  · simp only [resolve, h, hid, if_true]

theorem run_resolve_of_not {reference : String} (h : ∀ id, ¬s.Resolves reference id)
    (d : Deployment) : ∃ reason, d.run (s.resolve reference).run =
      (.error .invalidToken, d.count (.tokenRejected reason)) := by
  cases hr : s.cipher.redeem reference with
  | ok id => exact absurd (.inl hr) (h id)
  | error fault =>
    have hid : ¬Meeting.Identifier.isIdentifier reference :=
      fun hid => h reference (.inr ⟨⟨fault, hr⟩, hid, rfl⟩)
    simpa only [resolve, hr, if_neg hid] using s.run_reject hr d String

/-- That a deployment shows a meeting to the callers: its store holds it, and it is visible by both
clocks. -/
structure Shows (d : Deployment) (id : String) (m : Meeting) : Prop where
  held : d.memory.find? id = some m
  fresh : m.isVisibleAt d.storeClock.now
  visible : m.isVisibleAt d.clock.now

theorem Shows.unique {id : String} {m n : Meeting} (h : Shows d id m) (h' : Shows d id n) : m = n :=
  Option.some.inj (h.held.symm.trans h'.held)

inductive Fetched (d : Deployment) (id : String) : Except Fault Meeting × Deployment → Prop where
  | absent (tally : Metrics.Tally)
      (gone : ∀ m, d.memory.find? id = some m → ¬m.isVisibleAt d.storeClock.now) :
      Fetched d id (.error .notFound, { d with memory := d.memory.pop id, tally })
  | hidden {m : Meeting} (tally : Metrics.Tally) (held : d.memory.find? id = some m)
      (fresh : m.isVisibleAt d.storeClock.now) (expired : ¬m.isVisibleAt d.clock.now) :
      Fetched d id (.error .expired, { d with memory := d.memory.promote m, tally })
  | seen {m : Meeting} (tally : Metrics.Tally) (shown : Shows d id m) :
      Fetched d id (.ok m, { d with memory := d.memory.promote m, tally })

theorem fetched (h : d.Healthy) (id : String) : Fetched d id (d.run (fetchVisible id).run) := by
  obtain ⟨tally, hperform⟩ := h.perform (.get id)
  have hget : d.handle (.store (.get id)) = ((d.memory.get d.storeClock.now id).1,
      { d with memory := (d.memory.get d.storeClock.now id).2, tally }) := hperform
  change Fetched d id ((fetchVisible id).run.run Deployment.handle d)
  cases hfind : d.memory.find? id with
  | none =>
    rw [Memory.get_of_find?_eq_none hfind] at hget
    rw [run_fetchVisible_of_error hget, ← Memory.pop_of_find?_eq_none hfind]
    exact .absent tally (by simp [hfind])
  | some m =>
    by_cases hfresh : m.isVisibleAt d.storeClock.now
    · rw [Memory.get_of_visible hfind hfresh] at hget
      rw [run_fetchVisible_of_ok hget]
      change Fetched d id (if m.isVisibleAt d.clock.now then _ else _, _)
      by_cases hv : m.isVisibleAt d.clock.now
      · rw [if_pos hv]
        exact .seen tally ⟨hfind, hfresh, hv⟩
      · rw [if_neg hv]
        exact .hidden tally hfind hfresh hv
    · rw [Memory.get_of_not_visible hfind hfresh] at hget
      rw [run_fetchVisible_of_error hget]
      refine .absent tally fun n hn => ?_
      cases hfind.symm.trans hn
      exact hfresh

theorem Fetched.fault {id : String} {fault : Fault} {d' : Deployment}
    (h : Fetched d id (.error fault, d')) : fault = .notFound ∨ fault = .expired := by
  cases h with
  | absent => exact .inl rfl
  | hidden => exact .inr rfl

theorem Fetched.shown {id : String} {m : Meeting} {d' : Deployment}
    (h : Fetched d id (.ok m, d')) :
    ∃ tally, Shows d id m ∧ d' = { d with memory := d.memory.promote m, tally } := by
  cases h with
  | seen tally shown => exact ⟨tally, shown, rfl⟩

theorem Shows.not_missed {id : String} {m : Meeting} {fault : Fault} {d' : Deployment}
    (h : Shows d id m) : ¬Fetched d id (.error fault, d') := by
  intro read
  cases read with
  | absent tally gone => exact gone m h.held h.fresh
  | hidden tally held fresh expired =>
    cases h.held.symm.trans held
    exact expired h.visible

inductive Got (d : Deployment) (token : String) :
    Except Fault (Option Meeting.View) × Deployment → Prop where
  | rejected (tally : Metrics.Tally) (unknown : ∀ id, s.cipher.redeem token ≠ .ok id) :
      Got d token (.error .invalidToken, { d with tally })
  | gone {id : String} {fault : Fault} {d' : Deployment} (known : s.cipher.redeem token = .ok id)
      (read : Fetched d id (.error fault, d')) : Got d token (.ok none, d')
  | seen {id : String} {m : Meeting} (tally : Metrics.Tally)
      (known : s.cipher.redeem token = .ok id) (shown : Shows d id m) :
      Got d token (.ok (some (m.view token)), { d with memory := d.memory.promote m, tally })

section

variable {token id : String} {d' : Deployment}

theorem run_get_of_ok {m : Meeting} (hr : s.cipher.redeem token = .ok id)
    (hm : d.run (fetchVisible id).run = (.ok m, d')) :
    d.run (s.get token).run = (.ok (some (m.view token)), d') := by
  unfold get
  rw [redeem_of_ok s hr]
  exact Deployment.run_tryCatch_of_ok (Deployment.run_bind_of_ok hm)

theorem run_get_of_error {fault : Fault} (hr : s.cipher.redeem token = .ok id)
    (hm : d.run (fetchVisible id).run = (.error fault, d'))
    (hf : fault = .notFound ∨ fault = .expired) : d.run (s.get token).run = (.ok none, d') := by
  unfold get
  rw [redeem_of_ok s hr]
  rcases hf with rfl | rfl
  · exact Deployment.run_tryCatch_of_error (Deployment.run_bind_of_error hm)
  · exact Deployment.run_tryCatch_of_error (Deployment.run_bind_of_error hm)

end

theorem got (h : d.Healthy) (token : String) : s.Got d token (d.run (s.get token).run) := by
  cases hr : s.cipher.redeem token with
  | error fault =>
    obtain ⟨reason, hrun⟩ := s.run_redeem_of_error hr d
    have hget : d.run (s.get token).run = _ := Deployment.run_bind_of_error hrun
    rw [hget]
    exact .rejected _ (by simp [hr])
  | ok id =>
    have hread := fetched h id
    rcases hrun : d.run (fetchVisible id).run with ⟨fault | m, d'⟩
    · rw [hrun] at hread
      rw [s.run_get_of_error hr hrun hread.fault]
      exact .gone hr hread
    · rw [hrun] at hread
      obtain ⟨tally, shown, rfl⟩ := hread.shown
      rw [s.run_get_of_ok hr hrun]
      exact .seen tally hr shown

inductive Deleted (d : Deployment) (token : String) : Except Fault Unit × Deployment → Prop where
  | rejected (tally : Metrics.Tally) (unknown : ∀ id, s.cipher.redeem token ≠ .ok id) :
      Deleted d token (.error .invalidToken, { d with tally })
  | absent {id : String} (tally : Metrics.Tally) (known : s.cipher.redeem token = .ok id)
      (gone : d.memory.find? id = none) : Deleted d token (.error .notFound, { d with tally })
  | removed {id : String} {m : Meeting} (tally : Metrics.Tally)
      (known : s.cipher.redeem token = .ok id) (held : d.memory.find? id = some m) :
      Deleted d token (.ok (),
        { d with memory := { d.memory.pop id with chats := d.memory.chats.erase id }, tally })

theorem deleted (h : d.Healthy) (token : String) :
    s.Deleted d token (d.run (s.delete token).run) := by
  cases hr : s.cipher.redeem token with
  | error fault =>
    obtain ⟨reason, hrun⟩ := s.run_redeem_of_error hr d
    have hdelete : d.run (s.delete token).run = _ := Deployment.run_bind_of_error hrun
    rw [hdelete]
    exact .rejected _ (by simp [hr])
  | ok id =>
    obtain ⟨tally, hperform⟩ := h.perform (.delete id)
    have hdelete : d.run (s.delete token).run = ((d.memory.delete id).1,
        { d with memory := (d.memory.delete id).2, tally }) := by
      unfold delete
      rw [redeem_of_ok s hr]
      exact hperform
    rw [hdelete]
    cases hfind : d.memory.find? id with
    | none =>
      rw [Memory.delete_of_find?_eq_none hfind]
      exact .absent tally hr hfind
    | some m =>
      rw [Memory.delete_of_find? hfind]
      exact .removed tally hr hfind

theorem run_sweep (h : d.Healthy) (cutoff : Int64) : ∃ tally, (d.run (sweep cutoff)).2 =
    { d with memory := (d.memory.deleteExpired cutoff).2, tally } := by
  obtain ⟨tally, hperform⟩ := h.perform (.deleteExpired cutoff)
  have hask : d.handle (.store (.deleteExpired cutoff)) = (.ok (d.memory.deleteExpired cutoff).1,
      { d with memory := (d.memory.deleteExpired cutoff).2, tally }) := hperform
  unfold sweep Program.answer Deployment.run
  rw [Program.ask_bind, Program.run, hask]
  exact ⟨_, rfl⟩

theorem run_closeChat (h : d.Healthy) (id : String) : ∃ tally, (d.run (closeChat id)).2 =
    { d with chat := d.chat.callAll (d.memory.chatLink? id).toList, tally } := by
  obtain ⟨tally, hperform⟩ := h.perform (.chatLink id)
  have hask : d.handle (.store (.chatLink id)) =
      (.ok (d.memory.chatLink? id), { d with tally }) := hperform
  refine ⟨tally, ?_⟩
  cases hlink : d.memory.chatLink? id with
  | none =>
    rw [hlink] at hask
    exact run_closeChat_of_none hask
  | some link =>
    rw [hlink] at hask
    exact run_closeChat_of_some hask

/-- A note is made in a meeting that has been read. -/
theorem handle_modify (h : d.Healthy) {op : Operation} {answer : op.Answer} {m n : Meeting}
    (hop : (d.memory.promote m).perform d.storeClock.now op = (answer, d.memory.promote n))
    (tally : Metrics.Tally) : ∃ tally',
    { d with memory := d.memory.promote m, tally }.handle (.store op) =
      (answer, { d with memory := d.memory.promote n, tally := tally' }) := by
  have healthy : { d with memory := d.memory.promote m, tally }.Healthy := h
  obtain ⟨tally', hperform⟩ := healthy.perform op
  dsimp only at hperform
  rw [hop] at hperform
  exact ⟨tally', hperform⟩

inductive Attached (d : Deployment) (reference callId : String) (bridged : Bool) :
    Except Fault CallLink × Deployment → Prop where
  | rejected (tally : Metrics.Tally) (unknown : ∀ id, ¬s.Resolves reference id) :
      Attached d reference callId bridged (.error .invalidToken, { d with tally })
  | missed {id : String} {fault : Fault} {d' : Deployment} (known : s.Resolves reference id)
      (read : Fetched d id (.error fault, d')) :
      Attached d reference callId bridged (.error fault, d')
  | alreadyLinked {id : String} {m : Meeting} (tally : Metrics.Tally)
      (known : s.Resolves reference id) (shown : Shows d id m) (called : m.callId.isSome) :
      Attached d reference callId bridged (.ok (.alreadyLinked id),
        { d with memory := d.memory.promote m, tally })
  | linked {id : String} {m : Meeting} (tally : Metrics.Tally) (known : s.Resolves reference id)
      (shown : Shows d id m) (uncalled : m.callId = none) :
      Attached d reference callId bridged (.ok (.linked id),
        { d with
          memory := d.memory.promote { m with callId := some callId, bridged }
          chat := d.chat.callAll (d.memory.chatLink? id).toList
          tally })

theorem attached (h : d.Healthy) (reference callId : String) (bridged : Bool) :
    s.Attached d reference callId bridged (d.run (s.attachCall reference callId bridged).run) := by
  by_cases hknown : ∃ id, s.Resolves reference id
  · obtain ⟨id, known⟩ := hknown
    have hread := fetched h id
    unfold attachCall
    rw [resolve_of_resolves s known, pure_bind]
    rcases hrun : d.run (fetchVisible id).run with ⟨fault | m, d'⟩
    · rw [hrun] at hread
      rw [Deployment.run_bind_of_error hrun]
      exact .missed known hread
    · rw [hrun] at hread
      obtain ⟨tally, shown, rfl⟩ := hread.shown
      rw [Deployment.run_bind_of_ok hrun]
      by_cases hc : m.callId.isSome
      · rw [if_pos hc]
        exact .alreadyLinked tally known shown hc
      · have hop : (d.memory.promote m).perform d.storeClock.now (.setCall id callId bridged) =
            (.ok (), d.memory.promote { m with callId := some callId, bridged }) :=
          Memory.modify_promote shown.held rfl
        obtain ⟨tally, hset⟩ := handle_modify h hop tally
        have healthy : ∀ memory, { d with memory, tally }.Healthy := fun _ => h
        obtain ⟨tally', hclose⟩ := run_closeChat (healthy (d.memory.promote _)) id
        rw [if_neg hc, Deployment.run_bind_of_ok ((Deployment.run_store _ _).trans hset),
          Deployment.run_bind_of_ok (Deployment.run_lift _ _), hclose]
        exact .linked tally' known shown (by simpa using hc)
  · have unknown : ∀ id, ¬s.Resolves reference id := fun id h => hknown ⟨id, h⟩
    obtain ⟨reason, hrun⟩ := s.run_resolve_of_not unknown d
    have hattach : d.run (s.attachCall reference callId bridged).run = _ :=
      Deployment.run_bind_of_error hrun
    rw [hattach]
    exact .rejected _ unknown

def outcome : Except Fault CallLink → Call.Outcome
  | .ok (.linked _) => .linked
  | .ok (.alreadyLinked _) => .alreadyLinked
  | .error _ => .failed

inductive Taken (d : Deployment) (payload : List UInt8) : Call.Outcome × Deployment → Prop where
  | unparseable {failure : Json.Failure} (tally : Metrics.Tally)
      (unread : Call.Hangup.ofPayload payload = .error failure) :
      Taken d payload (.unparseable, { d with tally })
  | skipped {hangup : Call.Hangup} (tally : Metrics.Tally)
      (read : Call.Hangup.ofPayload payload = .ok hangup)
      (unrelated : hangup.data.meetingId = none) :
      Taken d payload (.skipped, { d with tally })
  | attached {hangup : Call.Hangup} {reference : String} {r : Except Fault CallLink}
      {d' : Deployment} (tally : Metrics.Tally) (read : Call.Hangup.ofPayload payload = .ok hangup)
      (related : hangup.data.meetingId = some reference)
      (result : s.Attached d reference hangup.id hangup.bridged (r, d')) :
      Taken d payload (outcome r, { d' with tally })

theorem run_takeHangup {hangup : Call.Hangup} {reference : String} {r : Except Fault CallLink}
    {d' : Deployment} (related : hangup.data.meetingId = some reference)
    (h : d.run (s.attachCall reference hangup.id hangup.bridged).run = (r, d')) :
    d.run (s.takeHangup hangup) = (outcome r, d') := by
  unfold takeHangup
  rw [related]
  change d.run (_ >>= _) = _
  rw [Deployment.run_bind, h]
  rcases r with fault | id | id
  · rfl
  · rfl
  · rfl

theorem run_takeEvent {payload : List UInt8} {hangup : Call.Hangup} {o : Call.Outcome}
    {d' : Deployment} (read : Call.Hangup.ofPayload payload = .ok hangup)
    (h : d.run (s.takeHangup hangup) = (o, d')) :
    d.run (s.takeEvent payload) = (o, d'.count (.callEnded o)) := by
  unfold takeEvent
  rw [read]
  change d.run (_ >>= _) = _
  rw [Deployment.run_bind, h]
  rfl

theorem taken (h : d.Healthy) (payload : List UInt8) :
    s.Taken d payload (d.run (s.takeEvent payload)) := by
  cases hread : Call.Hangup.ofPayload payload with
  | error failure =>
    unfold takeEvent
    rw [hread]
    exact .unparseable _ hread
  | ok hangup =>
    cases hrelated : hangup.data.meetingId with
    | none =>
      have hskip : d.run (s.takeHangup hangup) = (.skipped, d) := by
        unfold takeHangup
        rw [hrelated]
        rfl
      rw [s.run_takeEvent hread hskip]
      exact .skipped _ hread hrelated
    | some reference =>
      have hresult := s.attached h reference hangup.id hangup.bridged
      generalize hrun : d.run (s.attachCall reference hangup.id hangup.bridged).run = x at hresult
      rw [s.run_takeEvent hread (s.run_takeHangup hrelated hrun)]
      exact .attached _ hread hrelated hresult

def push (m : Meeting) (callId value : String) : Push :=
  ⟨m.domainId, callId, .single answerVariable value⟩

inductive Submitted (d : Deployment) (token answer : String) :
    Except Fault Unit × Deployment → Prop where
  | untidy {fault : Fault} (refused : Meeting.tidyAnswer answer = .error fault) :
      Submitted d token answer (.error fault, d)
  | rejected (tally : Metrics.Tally) (unknown : ∀ id, s.cipher.redeem token ≠ .ok id) :
      Submitted d token answer (.error .invalidToken, { d with tally })
  | missed {id : String} {fault : Fault} {d' : Deployment} (known : s.cipher.redeem token = .ok id)
      (read : Fetched d id (.error fault, d')) : Submitted d token answer (.error fault, d')
  | notAllowed {id reason : String} {m : Meeting} (tally : Metrics.Tally)
      (known : s.cipher.redeem token = .ok id) (shown : Shows d id m)
      (closed : surveyedCall m = .error reason) :
      Submitted d token answer (.error (.notAllowed reason),
        { d with memory := d.memory.promote m, tally })
  | refused {id callId value : String} {m : Meeting} {fault : Fault} {engine : Collaborator Push}
      (tally : Metrics.Tally) (tidy : Meeting.tidyAnswer answer = .ok value)
      (known : s.cipher.redeem token = .ok id) (shown : Shows d id m)
      (opened : surveyedCall m = .ok callId)
      (pushed : d.engine.call (push m callId value) = (.error fault, engine)) :
      Submitted d token answer (.error fault,
        { d with memory := d.memory.promote m, engine, tally })
  | noted {id callId value : String} {m : Meeting} {engine : Collaborator Push}
      (tally : Metrics.Tally) (tidy : Meeting.tidyAnswer answer = .ok value)
      (known : s.cipher.redeem token = .ok id) (shown : Shows d id m)
      (opened : surveyedCall m = .ok callId)
      (pushed : d.engine.call (push m callId value) = (.ok (), engine)) :
      Submitted d token answer (.ok (),
        { d with memory := d.memory.promote { m with satisfaction := some value }, engine, tally })

theorem handle_push (d : Deployment) (m : Meeting) (callId value : String) :
    d.handle (.setVariables m.domainId callId (.single answerVariable value)) =
      ((d.engine.call (push m callId value)).1,
        { d with engine := (d.engine.call (push m callId value)).2 }) := rfl

theorem submitted (h : d.Healthy) (token answer : String) :
    s.Submitted d token answer (d.run (s.submit token answer).run) := by
  unfold submit
  cases htidy : Meeting.tidyAnswer answer with
  | error fault => exact .untidy htidy
  | ok value =>
    rw [show Action.ofExcept (.ok value : Except Fault String) = pure value from rfl, pure_bind]
    cases hr : s.cipher.redeem token with
    | error fault =>
      obtain ⟨reason, hrun⟩ := s.run_redeem_of_error hr d
      rw [Deployment.run_bind_of_error hrun]
      exact .rejected _ (by simp [hr])
    | ok id =>
      rw [redeem_of_ok s hr, pure_bind]
      have hread := fetched h id
      rcases hrun : d.run (fetchVisible id).run with ⟨fault | m, d'⟩
      · rw [hrun] at hread
        rw [Deployment.run_bind_of_error hrun]
        exact .missed hr hread
      · rw [hrun] at hread
        obtain ⟨tally, shown, rfl⟩ := hread.shown
        rw [Deployment.run_bind_of_ok hrun]
        cases hsurvey : surveyedCall m with
        | error reason => exact .notAllowed _ hr shown hsurvey
        | ok callId =>
          dsimp only
          rw [Deployment.run_ask_bind, handle_push]
          rcases hpush : d.engine.call (push m callId value) with ⟨_ | _, engine⟩
          · exact .refused _ htidy hr shown hsurvey hpush
          · have hop : (d.memory.promote m).perform d.storeClock.now (.setSatisfaction id value) =
                (.ok (), d.memory.promote { m with satisfaction := some value }) :=
              Memory.modify_promote shown.held rfl
            have healthy : { d with engine }.Healthy := h
            obtain ⟨tally, hset⟩ := handle_modify healthy hop tally
            dsimp only
            rw [Deployment.run_ask_bind, hset]
            exact .noted _ htidy hr shown hsurvey hpush

inductive Created (d : Deployment) (draft : Meeting.Draft) :
    Except Fault Meeting.Ticket × Deployment → Prop where
  | failed (fault : Fault) (entropy : Entropy) (tally : Metrics.Tally) :
      Created d draft (.error fault, { d with entropy, tally })
  | stored {tidy : Meeting.Draft} {octets : Vector UInt8 Meeting.Identifier.size} {id url : String}
      (nonce : Token.Nonce) (entropy : Entropy) (tally : Metrics.Tally)
      (accepted : draft.tidy = .ok tidy) (drawn : id = Meeting.Identifier.ofOctets octets)
      (joined : url = tidy.basePath ++ "/" ++ s.cipher.issue nonce id)
      (free : ¬(d.memory.find? id).any (·.isVisibleAt d.storeClock.now)) :
      Created d draft (.ok ⟨s.cipher.issue nonce id, url⟩,
        { d with
          memory := d.memory.push (.ofDraft tidy id url d.clock.now s.defaultTtl)
          entropy, tally })

theorem handle_octets (d : Deployment) (n : Nat) : d.handle (.octets n) =
    (d.entropy.draw d.entropy.draws n,
      { d with entropy := { d.entropy with draws := d.entropy.draws + 1 } }) := rfl

theorem run_drawIdentifier (d : Deployment) : ∃ entropy,
    (∃ fault, d.run drawIdentifier.run = (.error fault, { d with entropy })) ∨
      ∃ octets, d.run drawIdentifier.run =
        (.ok (Meeting.Identifier.ofOctets octets), { d with entropy }) := by
  unfold drawIdentifier
  rw [Deployment.run_ask_bind, handle_octets]
  cases d.entropy.draw d.entropy.draws Meeting.Identifier.size with
  | none => exact ⟨_, .inl ⟨_, rfl⟩⟩
  | some octets => exact ⟨_, .inr ⟨octets, rfl⟩⟩

theorem run_issue (d : Deployment) (id : String) : ∃ entropy,
    (∃ fault, d.run (s.issue id).run = (.error fault, { d with entropy })) ∨
      ∃ nonce, d.run (s.issue id).run = (.ok (s.cipher.issue nonce id), { d with entropy }) := by
  unfold issue
  rw [Deployment.run_ask_bind, handle_octets]
  cases d.entropy.draw d.entropy.draws Token.nonceLength with
  | none => exact ⟨_, .inl ⟨_, rfl⟩⟩
  | some nonce => exact ⟨_, .inr ⟨nonce, rfl⟩⟩

theorem created (h : d.Healthy) (draft : Meeting.Draft) :
    s.Created d draft (d.run (s.create draft).run) := by
  unfold create
  cases htidy : draft.tidy with
  | error fault => exact .failed fault d.entropy d.tally
  | ok tidy =>
    rw [show Action.ofExcept (.ok tidy : Except Fault Meeting.Draft) = pure tidy from rfl,
      pure_bind]
    obtain ⟨entropy, ⟨fault, hid⟩ | ⟨octets, hid⟩⟩ := run_drawIdentifier d
    · rw [Deployment.run_bind_of_error hid]
      exact .failed fault entropy d.tally
    rw [Deployment.run_bind_of_ok hid, Deployment.run_ask_bind]
    change s.Created d draft (Deployment.run { d with entropy } (s.issue _ >>= _).run)
    generalize hdrawn : Meeting.Identifier.ofOctets octets = id
    obtain ⟨entropy, ⟨fault, htoken⟩ | ⟨nonce, htoken⟩⟩ := s.run_issue { d with entropy } id
    · rw [Deployment.run_bind_of_error htoken]
      exact .failed fault entropy d.tally
    rw [Deployment.run_bind_of_ok htoken]
    generalize hurl : tidy.basePath ++ "/" ++ s.cipher.issue nonce id = url
    change s.Created d draft (Deployment.run { d with entropy }
      (Action.store (.create (.ofDraft tidy id url d.clock.now s.defaultTtl)) >>= _).run)
    have healthy : { d with entropy }.Healthy := h
    obtain ⟨tally, hperform⟩ :=
      healthy.perform (.create (.ofDraft tidy id url d.clock.now s.defaultTtl))
    have hcreate := (Deployment.run_store _ _).trans hperform
    dsimp only [Memory.perform] at hcreate
    by_cases held : (d.memory.find? id).any (·.isVisibleAt d.storeClock.now)
    · rw [Memory.create_of_held held] at hcreate
      rw [Deployment.run_bind_of_error hcreate]
      exact .failed _ entropy tally
    · rw [Memory.create_of_free held] at hcreate
      rw [Deployment.run_bind_of_ok hcreate]
      subst hurl
      exact .stored nonce entropy _ htidy hdrawn.symm rfl held

end Service

end Rendezvous
