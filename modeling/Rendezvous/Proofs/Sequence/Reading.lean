import Rendezvous.Proofs.Isolation.Agreement
import Rendezvous.Proofs.Isolation.Projection
import Rendezvous.Proofs.Sequence.Failures
import Rendezvous.Proofs.Service.Resolution

namespace Rendezvous

open Store

inductive Command.Revisits : Command → Prop where
  | get (token : String) : Revisits (.get token)
  | delete (token : String) : Revisits (.delete token)
  | attachCall (reference callId : String) (bridged : Bool) :
      Revisits (.attachCall reference callId bridged)
  | submit (token answer : String) : Revisits (.submit token answer)

def Command.sought? (s : Service) : Command → Option String
  | get token | delete token => (s.cipher.redeem token).toOption
  | attachCall reference _ _ => s.referent? reference
  | submit token answer =>
    if (Meeting.tidyAnswer answer).isOk then (s.cipher.redeem token).toOption else none
  | _ => none

def Happening.Seeks (s : Service) (id : String) (x : Happening) : Prop :=
  ∃ c, x = .command c ∧ c.sought? s = some id

/-- Whether happenings are such commands, and the clock of the store goes on from a time. -/
inductive Onward : Int64 → List Happening → Prop where
  | nil {now : Int64} : Onward now []
  | command {now : Int64} {c : Command} {xs : List Happening} (revisits : c.Revisits)
      (rest : Onward now xs) : Onward now (.command c :: xs)
  | setClocks {now service store : Int64} {xs : List Happening} (later : now ≤ store)
      (rest : Onward store xs) : Onward now (.setClocks service store :: xs)

def watch (s : Service) : List Happening → Deployment → List Observation
  | [], _ => []
  | x :: xs, d =>
    let (reply, d) := x.befall s d
    ⟨reply.blur, d.chat, d.engine⟩ :: watch s xs d

/-- That a deployment does not show a meeting by the clock of its store, though it may still hold
it. -/
def Deployment.Gone (d : Deployment) (id : String) : Prop :=
  ∀ m, d.memory.find? id = some m → ¬m.isVisibleAt d.storeClock.now

/-- That a token is for a meeting that a deployment still holds, but does not show any more. -/
structure Lapsed (s : Service) (d : Deployment) (token id : String) : Prop where
  known : s.cipher.redeem token = .ok id
  held : d.memory.find? id ≠ none
  gone : d.Gone id

/-- That the first of some happenings to look for a meeting deletes it, and how many come before. -/
inductive RemovedAt (s : Service) (id : String) : List Happening → Nat → Prop where
  | now {token : String} {xs : List Happening} (known : s.cipher.redeem token = .ok id) :
      RemovedAt s id (.command (.delete token) :: xs) 0
  | later {x : Happening} {xs : List Happening} {n : Nat} (unsought : ¬x.Seeks s id)
      (rest : RemovedAt s id xs n) : RemovedAt s id (x :: xs) (n + 1)

/-- What is seen of a removal that fails, if it is seen of one that succeeds. -/
def Observation.missed (o : Observation) : Observation :=
  { o with reply := .deleted (.error .notFound) }

/-- That two deployments agree on all meetings but one, which the first does not show and the second
does not hold. -/
structure Apart (id : String) (d d' : Deployment) : Prop where
  agree : Deployment.AgreeOn (· ≠ id) d d'
  gone : d.Gone id
  absent : d'.memory.find? id = none

variable {s : Service} {d d' : Deployment} {id : String} {c : Command}

theorem Deployment.storeClock_run {α : Type} (d : Deployment) (p : Program α) :
    (d.run p).2.storeClock = d.storeClock := by
  refine Deployment.run_induction (P := fun e => e.storeClock = d.storeClock)
    (fun e q he => ?_) rfl p
  cases q with
  | store op =>
    change (e.perform op).2.storeClock = _
    cases hfault : e.faults op.kind with
    | some fault => rwa [Deployment.perform_of_fault hfault]
    | none =>
      obtain ⟨tally, hperform⟩ := Deployment.perform_of_healthy hfault
      rw [hperform]
      exact he
  | _ => exact he

/-- A command is a program about the meeting that it looks for, and about none if it looks for
none. -/
theorem Command.Revisits.exists_program (revisits : c.Revisits)
    (h : Concerns (c.sought? s) id) : ∃ (α : Type) (p : Program α) (f : α → Reply),
      (∀ d, Deployment.platform.obey s c d = Deployment.platform.tell p f d) ∧
      p.Ensures (Tends id) (fun _ _ => True) [] := by
  cases revisits with
  | get token =>
    have h : Concerns (s.cipher.redeem token).toOption id := h
    exact ⟨_, (s.get token).run, .got, fun _ => rfl,
      (tends_get s h).ensures.mono fun _ _ _ => trivial⟩
  | delete token =>
    have h : Concerns (s.cipher.redeem token).toOption id := h
    exact ⟨_, (s.delete token).run, .deleted, fun _ => rfl,
      (tends_delete s h).ensures.mono fun _ _ _ => trivial⟩
  | attachCall reference callId bridged =>
    have h : Concerns (s.referent? reference) id := h
    exact ⟨_, (s.attachCall reference callId bridged).run, .attached, fun _ => rfl,
      (tends_attachCall s h callId bridged).ensures.mono fun _ _ _ => trivial⟩
  | submit token answer =>
    refine ⟨_, (s.submit token answer).run, .submitted, fun _ => rfl, ?_⟩
    cases htidy : Meeting.tidyAnswer answer with
    | ok value =>
      simp only [sought?, htidy, Except.isOk, Except.toBool, if_true] at h
      exact (tends_submit s h answer).ensures.mono fun _ _ _ => trivial
    | error fault =>
      unfold Service.submit
      rw [htidy]
      exact Program.ensures_done.mpr trivial

theorem exists_concerns_ne {sought? : Option String} (h : sought? ≠ some id) :
    ∃ id', id' ≠ id ∧ Concerns sought? id' := by
  cases sought? with
  | some a => exact ⟨a, fun heq => h (congrArg some heq), fun _ ha => (Option.some.inj ha).symm⟩
  | none =>
    refine ⟨id.push 'x', fun heq => ?_, nofun⟩
    simpa using congrArg String.length heq

theorem concerns_getD (sought? : Option String) : Concerns sought? (sought?.getD "") := by
  rintro a rfl
  rfl

theorem Command.Revisits.storeClock_obey (revisits : c.Revisits) (s : Service) (d : Deployment) :
    (Deployment.platform.obey s c d).2.storeClock = d.storeClock := by
  obtain ⟨α, p, f, told, -⟩ := revisits.exists_program (s := s) (concerns_getD _)
  rw [told, tell_eq]
  exact d.storeClock_run p

/-- A command that looks for another meeting, or for none, leaves a meeting as it is. -/
theorem Command.Revisits.find?_obey (revisits : c.Revisits) (hne : c.sought? s ≠ some id)
    (d : Deployment) :
    (Deployment.platform.obey s c d).2.memory.find? id = d.memory.find? id := by
  obtain ⟨id', hne', concerns⟩ := exists_concerns_ne hne
  obtain ⟨α, p, f, told, tends⟩ := revisits.exists_program concerns
  rw [told, tell_eq]
  exact congrArg Slot.meeting? (Deployment.slot_run_other (tends.attends d) hne'.symm)

theorem Deployment.AgreeOn.obey {P : String → Prop} (h : AgreeOn P d d') (revisits : c.Revisits)
    (concerns : Concerns (c.sought? s) id) (hid : P id) :
    (Deployment.platform.obey s c d').1 = (Deployment.platform.obey s c d).1 ∧
      AgreeOn P (Deployment.platform.obey s c d).2 (Deployment.platform.obey s c d').2 := by
  obtain ⟨α, p, f, told, tends⟩ := revisits.exists_program concerns
  obtain ⟨answer, agree⟩ := h.run tends hid
  rw [told, told, tell_eq, tell_eq]
  exact ⟨congrArg f answer, agree⟩

theorem Deployment.Gone.of_eq (h : d.Gone id) (held : d'.memory.find? id = d.memory.find? id)
    (later : d.storeClock.now ≤ d'.storeClock.now) : d'.Gone id := by
  intro m hm hvisible
  rw [held] at hm
  obtain ⟨hexpired, huncalled⟩ := not_isVisibleAt.mp (h m hm)
  exact not_isVisibleAt.mpr ⟨Int64.le_trans hexpired later, huncalled⟩ hvisible

theorem Deployment.Gone.of_none (h : d.memory.find? id = none) : d.Gone id := by
  intro m hm
  cases h.symm.trans hm

theorem Apart.obey_other (h : Apart id d d') (revisits : c.Revisits)
    (hne : c.sought? s ≠ some id) :
    (Deployment.platform.obey s c d').1 = (Deployment.platform.obey s c d).1 ∧
      Apart id (Deployment.platform.obey s c d).2 (Deployment.platform.obey s c d').2 := by
  obtain ⟨id', hne', concerns⟩ := exists_concerns_ne hne
  obtain ⟨reply, agree⟩ := h.agree.obey revisits concerns hne'
  have later : d.storeClock.now ≤ (Deployment.platform.obey s c d).2.storeClock.now := by
    rw [revisits.storeClock_obey s d]
    exact Int64.le_refl _
  exact ⟨reply, agree, h.gone.of_eq (revisits.find?_obey hne d) later,
    (revisits.find?_obey hne d').trans h.absent⟩

def Command.missed : Command → Reply
  | get _ => .got (.ok none)
  | attachCall .. => .attached (.error .notFound)
  | submit .. => .submitted (.error .notFound)
  | delete _ => .deleted (.error .notFound)
  | _ => .silent

theorem resolves_of_referent? {reference : String} (h : s.referent? reference = some id) :
    s.Resolves reference id := by
  unfold Service.referent? at h
  split at h
  case h_1 a hr =>
    obtain rfl := Option.some.inj h
    exact .inl hr
  case h_2 fault hr =>
    split at h
    case isTrue hid =>
      obtain rfl := Option.some.inj h
      exact .inr ⟨⟨fault, hr⟩, hid, rfl⟩
    case isFalse => cases h

theorem redeem_of_toOption {token : String} (h : (s.cipher.redeem token).toOption = some id) :
    s.cipher.redeem token = .ok id := by
  cases hr : s.cipher.redeem token with
  | ok a =>
    rw [hr] at h
    exact congrArg _ (Option.some.inj h)
  | error fault =>
    rw [hr] at h
    cases h

namespace Service

theorem run_fetchVisible_of_gone (healthy : d.Healthy) (gone : d.Gone id) :
    ∃ tally, d.run (fetchVisible id).run =
      (.error .notFound, { d with memory := d.memory.pop id, tally }) := by
  have hread := fetched healthy id
  generalize d.run (fetchVisible id).run = z at hread
  cases hread with
  | absent tally _ => exact ⟨tally, rfl⟩
  | hidden tally held fresh expired => exact absurd fresh (gone _ held)
  | seen tally shown => exact absurd shown.fresh (gone _ shown.held)

theorem run_get_of_gone (healthy : d.Healthy) (gone : d.Gone id) {token : String}
    (known : s.cipher.redeem token = .ok id) :
    ∃ tally, d.run (s.get token).run =
      (.ok none, { d with memory := d.memory.pop id, tally }) := by
  obtain ⟨tally, hread⟩ := run_fetchVisible_of_gone healthy gone
  exact ⟨tally, s.run_get_of_error known hread (.inl rfl)⟩

theorem run_attachCall_of_gone (healthy : d.Healthy) (gone : d.Gone id) {reference : String}
    (known : s.Resolves reference id) (callId : String) (bridged : Bool) :
    ∃ tally, d.run (s.attachCall reference callId bridged).run =
      (.error .notFound, { d with memory := d.memory.pop id, tally }) := by
  obtain ⟨tally, hread⟩ := run_fetchVisible_of_gone healthy gone
  unfold attachCall
  rw [resolve_of_resolves s known, pure_bind, Deployment.run_bind_of_error hread]
  exact ⟨tally, rfl⟩

theorem run_submit_of_gone (healthy : d.Healthy) (gone : d.Gone id) {token answer value : String}
    (tidy : Meeting.tidyAnswer answer = .ok value) (known : s.cipher.redeem token = .ok id) :
    ∃ tally, d.run (s.submit token answer).run =
      (.error .notFound, { d with memory := d.memory.pop id, tally }) := by
  obtain ⟨tally, hread⟩ := run_fetchVisible_of_gone healthy gone
  unfold submit
  rw [tidy, show Action.ofExcept (.ok value : Except Fault String) = pure value from rfl,
    pure_bind, redeem_of_ok s known, pure_bind, Deployment.run_bind_of_error hread]
  exact ⟨tally, rfl⟩

end Service

/-- A command that does not find the meeting that it looks for drops what is left of it, if it does
not delete it. -/
theorem obey_of_gone (healthy : d.Healthy) (revisits : c.Revisits) (sought : c.sought? s = some id)
    (gone : d.Gone id) (kept : ∀ token, c ≠ .delete token) :
    ∃ tally, Deployment.platform.obey s c d =
      (c.missed, { d with memory := d.memory.pop id, tally }) := by
  cases revisits with
  | delete token => exact absurd rfl (kept token)
  | get token =>
    have known : s.cipher.redeem token = .ok id := redeem_of_toOption sought
    obtain ⟨tally, hrun⟩ := Service.run_get_of_gone healthy gone known
    rw [Platform.obey, tell_eq, hrun]
    exact ⟨tally, rfl⟩
  | attachCall reference callId bridged =>
    have known : s.Resolves reference id := resolves_of_referent? sought
    obtain ⟨tally, hrun⟩ := Service.run_attachCall_of_gone healthy gone known callId bridged
    rw [Platform.obey, tell_eq, hrun]
    exact ⟨tally, rfl⟩
  | submit token answer =>
    cases tidy : Meeting.tidyAnswer answer with
    | error fault => simp [Command.sought?, tidy, Except.isOk, Except.toBool] at sought
    | ok value =>
      simp only [Command.sought?, tidy, Except.isOk, Except.toBool, if_true] at sought
      obtain ⟨tally, hrun⟩ :=
        Service.run_submit_of_gone healthy gone tidy (redeem_of_toOption sought)
      rw [Platform.obey, tell_eq, hrun]
      exact ⟨tally, rfl⟩

/-- What both hold of the meeting, if they do, is dropped. -/
theorem Apart.drop (h : Apart id d d') {memory memory' : Memory} {t t' : Slot}
    (changes : d.memory.Changes memory id t) (changes' : d'.memory.Changes memory' id t')
    (dropped : t.meeting? = none) (dropped' : t'.meeting? = none) (tally tally' : Metrics.Tally) :
    memory.find? id = none ∧
      Apart id { d with memory, tally } { d' with memory := memory', tally := tally' } := by
  have absent : memory.find? id = none := changes.find?.trans dropped
  exact ⟨absent, h.agree.change changes changes' (absurd rfl) tally tally', .of_none absent,
    changes'.find?.trans dropped'⟩

theorem Apart.obey_kept (h : Apart id d d') (revisits : c.Revisits)
    (sought : c.sought? s = some id) (kept : ∀ token, c ≠ .delete token) :
    (Deployment.platform.obey s c d').1 = (Deployment.platform.obey s c d).1 ∧
      (Deployment.platform.obey s c d).2.memory.find? id = none ∧
      Apart id (Deployment.platform.obey s c d).2 (Deployment.platform.obey s c d').2 := by
  obtain ⟨tally, hobey⟩ := obey_of_gone h.agree.healthy revisits sought h.gone kept
  obtain ⟨tally', hobey'⟩ :=
    obey_of_gone h.agree.healthy' revisits sought (.of_none h.absent) kept
  rw [hobey, hobey']
  exact ⟨rfl, h.drop (Memory.changes_pop id) (Memory.changes_pop id) rfl rfl tally tally'⟩

theorem obey_delete_of_absent {token : String} (healthy : d.Healthy)
    (known : s.cipher.redeem token = .ok id) (absent : d.memory.find? id = none) : ∃ tally,
    Deployment.platform.obey s (.delete token) d =
      (.deleted (.error .notFound), { d with tally }) := by
  have hresult := s.deleted healthy token
  simp only [Platform.obey, tell_eq]
  generalize d.run (s.delete token).run = z at hresult
  cases hresult with
  | rejected tally unknown => exact absurd known (unknown id)
  | absent tally _ _ => exact ⟨tally, rfl⟩
  | removed tally known' held =>
    obtain rfl := Except.ok.inj (known.symm.trans known')
    cases absent.symm.trans held

theorem obey_delete_of_held {token : String} (healthy : d.Healthy)
    (known : s.cipher.redeem token = .ok id) (held : d.memory.find? id ≠ none) : ∃ tally,
    Deployment.platform.obey s (.delete token) d = (.deleted (.ok ()),
      { d with memory := { d.memory.pop id with chats := d.memory.chats.erase id }, tally }) := by
  have hresult := s.deleted healthy token
  simp only [Platform.obey, tell_eq]
  generalize d.run (s.delete token).run = z at hresult
  cases hresult with
  | rejected tally unknown => exact absurd known (unknown id)
  | absent tally known' gone =>
    obtain rfl := Except.ok.inj (known.symm.trans known')
    exact absurd gone held
  | removed tally known' _ =>
    obtain rfl := Except.ok.inj (known.symm.trans known')
    exact ⟨tally, rfl⟩

/-- A command that looks for a meeting that neither holds. -/
theorem Apart.obey_absent (h : Apart id d d') (absent : d.memory.find? id = none)
    (revisits : c.Revisits) (sought : c.sought? s = some id) :
    (Deployment.platform.obey s c d').1 = (Deployment.platform.obey s c d).1 ∧
      (Deployment.platform.obey s c d).2.memory.find? id = none ∧
      Apart id (Deployment.platform.obey s c d).2 (Deployment.platform.obey s c d').2 := by
  by_cases hc : ∃ token, c = .delete token
  · obtain ⟨token, rfl⟩ := hc
    have known : s.cipher.redeem token = .ok id := redeem_of_toOption sought
    obtain ⟨tally, hobey⟩ := obey_delete_of_absent h.agree.healthy known absent
    obtain ⟨tally', hobey'⟩ := obey_delete_of_absent h.agree.healthy' known h.absent
    rw [hobey, hobey']
    exact ⟨rfl, h.drop (Memory.changes_self _ id) (Memory.changes_self _ id) absent h.absent
      tally tally'⟩
  · exact h.obey_kept revisits sought (not_exists.mp hc)

theorem watch_cons (s : Service) (x : Happening) (xs : List Happening) (d : Deployment) :
    watch s (x :: xs) d =
      ⟨(x.befall s d).1.blur, (x.befall s d).2.chat, (x.befall s d).2.engine⟩ ::
        watch s xs (x.befall s d).2 := rfl

theorem reply_command (s : Service) (c : Command) (d : Deployment) :
    (watch s [.command c] d).map Observation.reply =
      [(Deployment.platform.obey s c d).1.blur] := rfl

theorem Deployment.AgreeOn.setClocks {P : String → Prop} (h : AgreeOn P d d')
    (service store : Int64) :
    AgreeOn P { d with clock := ⟨service⟩, storeClock := ⟨store⟩ }
      { d' with clock := ⟨service⟩, storeClock := ⟨store⟩ } :=
  { h with clock := rfl, storeClock := rfl }

section

variable {x : Happening} {xs : List Happening}

theorem watch_cons_eq {P : String → Prop} (reply : (x.befall s d').1 = (x.befall s d).1)
    (agree : Deployment.AgreeOn P (x.befall s d).2 (x.befall s d').2)
    (rest : watch s xs (x.befall s d').2 = watch s xs (x.befall s d).2) :
    watch s (x :: xs) d' = watch s (x :: xs) d := by
  rw [watch_cons, watch_cons, reply, agree.chat, agree.engine, rest]

theorem Onward.of_command (h : Onward d.storeClock.now (.command c :: xs)) (s : Service) :
    c.Revisits ∧ Onward (Deployment.platform.obey s c d).2.storeClock.now xs := by
  cases h with
  | command revisits rest =>
    rw [revisits.storeClock_obey s d]
    exact ⟨revisits, rest⟩

/-- What does not look for the meeting is answered the same, and leaves it as it is. -/
theorem Apart.befall_other (h : Apart id d d') (onward : Onward d.storeClock.now (x :: xs))
    (unsought : ¬x.Seeks s id) :
    (x.befall s d').1 = (x.befall s d).1 ∧
      (x.befall s d).2.memory.find? id = d.memory.find? id ∧
      Apart id (x.befall s d).2 (x.befall s d').2 ∧ Onward (x.befall s d).2.storeClock.now xs := by
  cases x with
  | command c =>
    obtain ⟨revisits, rest⟩ := onward.of_command s
    have hne : c.sought? s ≠ some id := fun sought => unsought ⟨c, rfl, sought⟩
    obtain ⟨reply, apart⟩ := h.obey_other revisits hne
    exact ⟨reply, revisits.find?_obey hne d, apart, rest⟩
  | setClocks service store =>
    cases onward with
    | setClocks later rest =>
      exact ⟨rfl, rfl, ⟨h.agree.setClocks service store, h.gone.of_eq rfl later, h.absent⟩, rest⟩
  | event payload => nomatch onward

theorem Deployment.AgreeOn.watch_eq (h : AgreeOn (fun _ => True) d d')
    (onward : Onward d.storeClock.now xs) : watch s xs d' = watch s xs d := by
  generalize d.storeClock.now = now at onward
  induction onward generalizing d d' with
  | nil => rfl
  | command revisits _ ih =>
    obtain ⟨reply, agree⟩ := h.obey revisits (concerns_getD _) trivial
    exact watch_cons_eq (x := .command _) reply agree (ih agree)
  | @setClocks _ service store _ _ _ ih =>
    have agree := h.setClocks service store
    exact watch_cons_eq (x := .setClocks _ _) rfl agree (ih agree)

theorem Apart.watch_of_absent (h : Apart id d d') (absent : d.memory.find? id = none)
    (onward : Onward d.storeClock.now xs) : watch s xs d' = watch s xs d := by
  induction xs generalizing d d' with
  | nil => rfl
  | cons x xs ih =>
    by_cases sought : x.Seeks s id
    · obtain ⟨c, rfl, sought⟩ := sought
      obtain ⟨revisits, onward⟩ := onward.of_command s
      obtain ⟨reply, absent, apart⟩ := h.obey_absent absent revisits sought
      exact watch_cons_eq (x := .command c) reply apart.agree (ih apart absent onward)
    · obtain ⟨reply, held, apart, onward⟩ := h.befall_other onward sought
      exact watch_cons_eq reply apart.agree (ih apart (held.trans absent) onward)

/-- Nothing else is seen if the first to look for the meeting does not delete it. -/
theorem Apart.watch_of_unremoved (h : Apart id d d') (onward : Onward d.storeClock.now xs)
    (unremoved : ∀ n, ¬RemovedAt s id xs n) : watch s xs d' = watch s xs d := by
  induction xs generalizing d d' with
  | nil => rfl
  | cons x xs ih =>
    by_cases sought : x.Seeks s id
    · obtain ⟨c, rfl, sought⟩ := sought
      have kept (token : String) : c ≠ .delete token := by
        rintro rfl
        exact unremoved 0 (.now (redeem_of_toOption sought))
      obtain ⟨revisits, onward⟩ := onward.of_command s
      obtain ⟨reply, absent, apart⟩ := h.obey_kept revisits sought kept
      exact watch_cons_eq (x := .command c) reply apart.agree (apart.watch_of_absent absent onward)
    · obtain ⟨reply, -, apart, onward⟩ := h.befall_other onward sought
      exact watch_cons_eq reply apart.agree
        (ih apart onward fun n removed => unremoved (n + 1) (.later sought removed))

/-- A removal that is the first to look for the meeting succeeds in the one and fails in the other,
and nothing else that is seen differs. -/
theorem Apart.watch_of_removed (h : Apart id d d') (held : d.memory.find? id ≠ none)
    (onward : Onward d.storeClock.now xs) {n : Nat} (removed : RemovedAt s id xs n) :
    (watch s xs d)[n]?.map Observation.reply = some (.deleted (.ok ())) ∧
      watch s xs d' = (watch s xs d).modify n Observation.missed := by
  induction removed generalizing d d' with
  | now known =>
    obtain ⟨-, onward⟩ := onward.of_command s
    obtain ⟨tally, hobey⟩ := obey_delete_of_held h.agree.healthy known held
    obtain ⟨tally', hobey'⟩ := obey_delete_of_absent h.agree.healthy' known h.absent
    obtain ⟨absent, apart⟩ := h.drop (Memory.changes_delete id) (Memory.changes_self _ id) rfl
      h.absent tally tally'
    rw [hobey] at onward
    have htail := apart.watch_of_absent (s := s) absent onward
    rw [watch_cons, watch_cons]
    simp only [Happening.befall, hobey, hobey']
    refine ⟨rfl, ?_⟩
    rw [List.modify_zero_cons, htail, h.agree.chat, h.agree.engine]
    rfl
  | later unsought removed ih =>
    obtain ⟨reply, held', apart, onward⟩ := h.befall_other onward unsought
    obtain ⟨hreply, htail⟩ := ih apart (held' ▸ held) onward
    rw [watch_cons, watch_cons]
    refine ⟨hreply, ?_⟩
    rw [List.modify_succ_cons, htail, reply, apart.agree.chat, apart.agree.engine]

end

section

variable {token : String} {xs : List Happening}

theorem Lapsed.apart (h : Lapsed s d token id) (healthy : d.Healthy) :
    Apart id d (d.run (s.get token).run).2 := by
  obtain ⟨tally, hrun⟩ := Service.run_get_of_gone healthy h.gone h.known
  rw [hrun]
  exact ⟨(Deployment.AgreeOn.refl healthy).change (Memory.changes_self _ id)
    (Memory.changes_pop id) (absurd rfl) d.tally tally, h.gone, (Memory.changes_pop id).find?⟩

/-- To read a meeting that is stored only moves it. -/
theorem Deployment.AgreeOn.promote (healthy : d.Healthy) {m : Meeting}
    (held : d.memory.find? id = some m) (tally : Metrics.Tally) :
    AgreeOn (fun _ => True) d { d with memory := d.memory.promote m, tally } := by
  have changes := Memory.changes_promote (s := d.memory) (Memory.find?_mem held).2
  have same : { d.memory.slot id with meeting? := some m } = d.memory.slot id := by
    rw [← held]
    rfl
  exact (AgreeOn.refl healthy).change (Memory.changes_self _ id) changes (fun _ => same) d.tally
    tally

/-- A reading that drops nothing changes nothing that is seen. -/
theorem watch_of_unlapsed (healthy : d.Healthy) (unlapsed : ∀ id, ¬Lapsed s d token id)
    (onward : Onward d.storeClock.now xs) :
    watch s xs (d.run (s.get token).run).2 = watch s xs d := by
  have hresult := s.got healthy token
  generalize d.run (s.get token).run = z at hresult
  cases hresult with
  | rejected tally unknown =>
    exact Deployment.AgreeOn.watch_eq { Deployment.AgreeOn.refl healthy with } onward
  | @gone id fault d' known read =>
    cases read with
    | absent tally gone =>
      have absent : d.memory.find? id = none := by
        by_contra held
        exact unlapsed id ⟨known, held, gone⟩
      rw [Memory.pop_of_find?_eq_none absent]
      have agree : Deployment.AgreeOn (fun _ => True) d { d with tally } :=
        { Deployment.AgreeOn.refl healthy with }
      exact agree.watch_eq onward
    | hidden tally held fresh expired =>
      exact (Deployment.AgreeOn.promote healthy held tally).watch_eq onward
  | seen tally known shown =>
    exact (Deployment.AgreeOn.promote healthy shown.held tally).watch_eq onward

end

/-- In any deployment whose store works, and as long as the clock of the store does not go back, a
reading more changes only one thing in what is seen of later readings, removals, calls and
submissions: if the meeting has expired without a call but is still held, and the next command to
look for it is to remove it, then the removal fails, which would have succeeded. -/
theorem reading_changes_one_removal (s : Service) {d : Deployment} (healthy : d.Healthy)
    (token : String) {xs : List Happening} (onward : Onward d.storeClock.now xs) :
    let d' := (d.run (s.get token).run).2
    (∀ id n, Lapsed s d token id → RemovedAt s id xs n →
      (watch s xs d)[n]?.map Observation.reply = some (.deleted (.ok ())) ∧
        watch s xs d' = (watch s xs d).modify n Observation.missed) ∧
    ((∀ id n, Lapsed s d token id → ¬RemovedAt s id xs n) → watch s xs d' = watch s xs d) := by
  refine ⟨fun id n lapsed removed =>
    (lapsed.apart healthy).watch_of_removed lapsed.held onward removed, fun unremoved => ?_⟩
  by_cases hlapsed : ∃ id, Lapsed s d token id
  · obtain ⟨id, lapsed⟩ := hlapsed
    exact (lapsed.apart healthy).watch_of_unremoved onward fun n => unremoved id n lapsed
  · exact watch_of_unlapsed healthy (not_exists.mp hlapsed) onward

namespace Deployment.Sample

open System.Sample Moment.Sample

def ticket (s : Service) : String := s.cipher.issue (Vector.replicate _ 1) System.Sample.id

def expired (tally : Metrics.Tally) : Deployment :=
  { state [first service] 2 tally with clock := ⟨60⟩, storeClock := ⟨60⟩ }

theorem lapsed_expired (tally : Metrics.Tally) :
    Lapsed service (expired tally) (ticket service) System.Sample.id where
  known := service.cipher.redeem_issue _ _
  held := nofun
  gone := by
    rintro m ⟨⟩
    have hexpired : (first service).expiresAt ≤ 60 := by decide
    exact not_isVisibleAt.mpr ⟨hexpired, rfl⟩

end Deployment.Sample

open Deployment.Sample Moment.Sample System.Sample in
/-- Of two removals after a while, it is the first that succeeds without a reading before, and both
fail after a reading. -/
theorem first_of_two_removals :
    let xs := [.setClocks 61 61, .command (.delete (ticket service)),
      .command (.delete (ticket service))]
    (expired .empty).Healthy ∧ Onward (expired .empty).storeClock.now xs ∧
    Lapsed service (expired .empty) (ticket service) System.Sample.id ∧
    RemovedAt service System.Sample.id xs 1 ∧
    watch service xs ((expired .empty).run (service.get (ticket service)).run).2 =
      (watch service xs (expired .empty)).modify 1 Observation.missed := by
  intro xs
  have healthy : (expired .empty).Healthy := fun _ => rfl
  have onward : Onward (expired .empty).storeClock.now xs :=
    .setClocks (by decide) (.command (.delete _) (.command (.delete _) .nil))
  have lapsed := lapsed_expired .empty
  have removed : RemovedAt service System.Sample.id xs 1 := .later nofun (.now lapsed.known)
  obtain ⟨_, missed⟩ :=
    (reading_changes_one_removal service healthy (ticket service) onward).1 _ _ lapsed removed
  exact ⟨healthy, onward, lapsed, removed, missed⟩

open Deployment.Sample Moment.Sample System.Sample in
/-- Once a meeting has expired it can be removed if it has not been read since, and not if it has
been. -/
theorem removal_depends_on_reading : ∃ ms d,
    Course service (.start 0 2 .accepting .accepting (entropy 0)) ms d ∧ (∀ x ∈ ms, x.HasRoom) ∧
    d.memory.size < d.memory.capacity ∧
    (watch service [.command (.delete (ticket service))] d).map Observation.reply =
      [.deleted (.ok ())] ∧
    (watch service [.command (.delete (ticket service))]
      (d.run (service.get (ticket service)).run).2).map Observation.reply =
        [.deleted (.error .notFound)] := by
  obtain ⟨tally, h⟩ := create_first service .empty
  have course : Course service (.start 0 2 .accepting .accepting (entropy 0)) []
    (state [] 0 .empty) := .start
  have course := course.next (.command (.create draft))
  rw [h] at course
  have course := course.next (.setClocks 60 60)
  have lapsed := lapsed_expired tally
  have apart := lapsed.apart fun _ => rfl
  obtain ⟨_, hobey⟩ := obey_delete_of_held apart.agree.healthy lapsed.known lapsed.held
  obtain ⟨_, hobey'⟩ := obey_delete_of_absent apart.agree.healthy' lapsed.known apart.absent
  refine ⟨_, expired tally, course, ?_, Nat.one_lt_two, ?_, ?_⟩
  · intro x hx _
    simp only [List.mem_cons, List.not_mem_nil, or_false] at hx
    rcases hx with rfl | rfl
    · exact Nat.one_lt_two
    · exact Nat.zero_lt_two
  · rw [reply_command, hobey]
    rfl
  · rw [reply_command, hobey']
    rfl

end Rendezvous
