import Rendezvous.Proofs.Isolation.Lockstep
import Rendezvous.Proofs.Sequence.Answers

namespace Rendezvous

open Store

namespace Happening

def newId? (entropy : Entropy) : Happening → Option String
  | command c => c.newId? entropy
  | _ => none

def outcome? (s : Service) (d : Deployment) : Happening → Option Call.Outcome
  | event payload => some (d.run (s.takeEvent payload)).1
  | _ => none

/-- What a happening does to a deployment, seen from another one that has no meeting but one: it is
the same there if the happening may concern the meeting, and nothing if it is addressed to another
meeting. -/
structure Projects (s : Service) (id : String) (d d' : Deployment) (x : Happening) : Prop where
  kept : Concerns (x.addressee? s d.entropy) id →
    (x.befall s (d'.attunedTo d)).1 = (x.befall s d).1 ∧
      d.Abreast id (d'.attunedTo d) (x.befall s d).2 (x.befall s (d'.attunedTo d)).2
  left : ∀ id', x.addressee? s d.entropy = some id' → id' ≠ id →
    Deployment.Mirrors id (x.befall s d).2 d'

section

variable {s : Service} {id : String} {d d' : Deployment}

theorem Projects.of_tell {α : Type} {p : Program α} {f : α → Reply} {x : Happening}
    (h : Deployment.Mirrors id d d')
    (told : ∀ d, x.befall s d = Deployment.platform.tell p f d)
    (attends : ∀ a, Concerns (x.addressee? s d.entropy) a → p.Attends a d) :
    x.Projects s id d d' where
  kept hx := by
    obtain ⟨result, abreast⟩ := h.abreast.run (attends id hx)
    rw [told, told, tell_eq, tell_eq]
    exact ⟨congrArg f result, abreast⟩
  left id' hx hne := by
    rw [told, tell_eq]
    refine h.run_other (attends id' fun a ha => ?_) hne
    exact Option.some.inj (ha.symm.trans hx)

theorem Projects.of_linked {x : Happening} {id' : String} (f : Memory → Memory)
    (h : Deployment.Mirrors id d d')
    (told : ∀ d, x.befall s d = (.silent, { d with memory := f d.memory }))
    (addressed : x.addressee? s d.entropy = some id')
    (same : id' = id → ∀ t, Memory.Mirrors id d.memory t → Memory.Mirrors id (f d.memory) (f t))
    (other : id' ≠ id → Memory.Mirrors id (f d.memory) d'.memory) : x.Projects s id d d' where
  kept hx := by
    have abreast := h.abreast
    have memory := same (hx id' addressed) _ abreast.mirrors.memory
    rw [told, told]
    exact ⟨rfl, { abreast with mirrors := { abreast.mirrors with memory } }⟩
  left id'' hx hne := by
    obtain rfl : id' = id'' := Option.some.inj (addressed.symm.trans hx)
    rw [told]
    exact { h with memory := other hne }

theorem Projects.of_clocks {x : Happening} {clock storeClock : Clock}
    (h : Deployment.Mirrors id d d')
    (told : ∀ d, x.befall s d = (.silent, { d with clock, storeClock }))
    (unaddressed : x.addressee? s d.entropy = none) : x.Projects s id d d' where
  kept _ := by
    have abreast := h.abreast
    rw [told, told]
    exact ⟨rfl, { abreast with
      mirrors := { abreast.mirrors with clock := rfl, storeClock := rfl } }⟩
  left id' hx := nomatch unaddressed.symm.trans hx

/-- Every happening does the same to the one meeting, or nothing. -/
theorem projects (h : Deployment.Mirrors id d d') (x : Happening)
    (room : (x.newId? d.entropy).isSome → d.memory.size < d.memory.capacity) :
    x.Projects s id d d' := by
  cases x with
  | event payload =>
    exact .of_tell (f := fun _ => .silent) h (fun _ => rfl)
      fun a ha => (tends_takeEvent s ha).attends d
  | setClocks service store => exact .of_clocks h (fun _ => rfl) rfl
  | command c =>
    cases c with
    | create draft =>
      refine .of_tell h (fun _ => rfl) fun a ha => s.attends_create fun id' hid => ⟨ha id' hid, ?_⟩
      exact room (Option.isSome_of_mem hid)
    | get token =>
      refine .of_tell h (fun _ => rfl) fun a ha => ?_
      simp only [addressee?] at ha
      exact (tends_get s ha).ensures.attends d
    | delete token =>
      refine .of_tell h (fun _ => rfl) fun a ha => ?_
      simp only [addressee?] at ha
      exact (tends_delete s ha).ensures.attends d
    | attachCall reference callId bridged =>
      refine .of_tell h (fun _ => rfl) fun a ha => ?_
      simp only [addressee?] at ha
      exact (tends_attachCall s ha callId bridged).ensures.attends d
    | submit token answer =>
      refine .of_tell h (fun _ => rfl) fun a ha => ?_
      simp only [addressee?] at ha
      exact (tends_submit s ha answer).ensures.attends d
    | sweep cutoff =>
      have abreast := h.abreast
      refine ⟨fun _ => ⟨rfl, ?_⟩, nofun⟩
      obtain ⟨tally, hsweep⟩ := Service.run_sweep abreast.mirrors.healthy cutoff
      obtain ⟨tally', hsweep'⟩ := Service.run_sweep abreast.mirrors.healthy' cutoff
      change Deployment.Abreast id d _ (d.run (Service.sweep cutoff)).2
        ((d'.attunedTo d).run (Service.sweep cutoff)).2
      rw [hsweep, hsweep']
      exact { abreast with
        mirrors := { abreast.mirrors with memory := abreast.mirrors.memory.deleteExpired cutoff } }
    | setClock now => exact .of_clocks h (fun _ => rfl) rfl
    | linkChat id' link =>
      refine .of_linked (·.linkChat id' link) h (fun _ => rfl) rfl ?_
        fun hne => h.memory.linkChat_other hne link
      rintro rfl t ht
      exact ht.linkChat link
    | unlinkChat id' =>
      refine .of_linked (fun t => (t.unlinkChat id').2) h (fun _ => rfl) rfl ?_
        fun hne => h.memory.unlinkChat_other hne
      rintro rfl t ht
      exact ht.unlinkChat

theorem outcome?_eq (h : Deployment.Mirrors id d d') {x : Happening}
    (hx : Concerns (x.addressee? s d.entropy) id) :
    x.outcome? s (d'.attunedTo d) = x.outcome? s d := by
  cases x with
  | event payload => exact congrArg some (h.abreast.run ((tends_takeEvent s hx).attends d)).1
  | command | setClocks => rfl

end

end Happening

/-- What is seen of a moment: what happened and what it was answered with, what became of an event,
which chats were closed, and which variables were pushed. -/
structure Sight where
  happening : Happening
  reply : Reply
  outcome? : Option Call.Outcome
  closings : List (ChatLink × Except Fault Unit)
  pushes : List (Push × Except Fault Unit)

namespace Moment

def closings (x : Moment) : List (ChatLink × Except Fault Unit) :=
  x.after.chat.calls.drop x.before.chat.calls.length

def sight (s : Service) (x : Moment) : Sight :=
  ⟨x.happening, x.reply, x.happening.outcome? s x.before, x.closings, x.pushes⟩

def isFor (s : Service) (id : String) (x : Moment) : Bool :=
  (x.happening.addressee? s x.before.entropy).all (· == id)

def HasRoom (x : Moment) : Prop :=
  (x.happening.newId? x.before.entropy).isSome → x.before.memory.size < x.before.memory.capacity

theorem isFor_iff {s : Service} {id : String} {x : Moment} :
    x.isFor s id ↔ Concerns (x.happening.addressee? s x.before.entropy) id := by
  simp [isFor, Concerns, Option.all_eq_true]

theorem addressee_of_not_isFor {s : Service} {id : String} {x : Moment} (h : ¬x.isFor s id) :
    ∃ id', x.happening.addressee? s x.before.entropy = some id' ∧ id' ≠ id := by
  rw [isFor_iff] at h
  simpa [Concerns] using h

end Moment

/-- Lets happen again, from a deployment on, what happened in some moments, the last first. Each
happening draws the octets that it drew, and its calls are answered as they were. -/
def replay (s : Service) (d₀ : Deployment) : List Moment → List Moment × Deployment
  | [] => ([], d₀)
  | x :: xs =>
    let (ys, d) := replay s d₀ xs
    let y := x.happening.moment s (d.attunedTo x.before)
    (y :: ys, y.after)

section

variable {s : Service} {id : String} {d d' d₀ : Deployment} {ms : List Moment}

/-- What is seen of a moment is seen of it when it happens again. -/
theorem sight_eq (h : Deployment.Mirrors id d d') {x : Happening}
    (hx : Concerns (x.addressee? s d.entropy) id) (projects : x.Projects s id d d') :
    (x.moment s (d'.attunedTo d)).sight s = (x.moment s d).sight s := by
  obtain ⟨reply, abreast⟩ := projects.kept hx
  have outcome := Happening.outcome?_eq h hx
  have closings := abreast.chat.since.1
  have pushes := abreast.engine.since.1
  simp only [Moment.sight, Moment.closings, Moment.pushes, Happening.moment, Sight.mk.injEq]
  exact ⟨trivial, reply, outcome, closings, pushes⟩

/-- What some moments that are left have in common with what happens when they happen again, after
the whole of which they are left has led to a deployment. -/
structure Replays (s : Service) (id : String) (d₀ : Deployment) (kept : List Moment)
    (d : Deployment) (again : List Moment × Deployment) : Prop where
  sights : again.1.map (Moment.sight s) = kept.map (Moment.sight s)
  mirrors : Deployment.Mirrors id d again.2
  closings : again.2.chat.calls = d₀.chat.calls ++ kept.reverse.flatMap Moment.closings
  pushes : again.2.engine.calls = d₀.engine.calls ++ kept.reverse.flatMap Moment.pushes

theorem Replays.cons {kept : List Moment} {x : Happening}
    (h : Replays s id d₀ kept d (replay s d₀ kept))
    (hx : Concerns (x.addressee? s d.entropy) id)
    (projects : x.Projects s id d (replay s d₀ kept).2) :
    Replays s id d₀ (x.moment s d :: kept) (x.befall s d).2
      (replay s d₀ (x.moment s d :: kept)) := by
  obtain ⟨_, abreast⟩ := projects.kept hx
  have chat := Collaborator.calls_attunedTo (replay s d₀ kept).2.chat d.chat
  have engine := Collaborator.calls_attunedTo (replay s d₀ kept).2.engine d.engine
  refine ⟨?_, abreast.mirrors, ?_, ?_⟩
  · have sight := sight_eq h.mirrors hx projects
    exact congrArg₂ List.cons sight h.sights
  · rw [List.reverse_cons, List.flatMap_append, List.flatMap_singleton, ← List.append_assoc,
      ← h.closings, ← chat]
    exact abreast.chat.since.2
  · rw [List.reverse_cons, List.flatMap_append, List.flatMap_singleton, ← List.append_assoc,
      ← h.pushes, ← engine]
    exact abreast.engine.since.2

theorem Course.replays (course : Course s d₀ ms d) (h₀ : Deployment.Mirrors id d₀ d₀)
    (room : ∀ x ∈ ms, x.HasRoom) :
    Replays s id d₀ (ms.filter (Moment.isFor s id)) d
      (replay s d₀ (ms.filter (Moment.isFor s id))) := by
  induction course with
  | start => exact ⟨rfl, h₀, (List.append_nil _).symm, (List.append_nil _).symm⟩
  | @next ms d course x ih =>
    obtain ⟨hroom, room⟩ := List.forall_mem_cons.mp room
    have h := ih room
    have projects := x.projects (s := s) h.mirrors hroom
    -- what is kept happens again from where the replay has come to; what is not leaves it there
    by_cases hx : (x.moment s d).isFor s id
    · rw [List.filter_cons_of_pos hx]
      exact h.cons (Moment.isFor_iff.mp hx) projects
    · rw [List.filter_cons_of_neg hx]
      obtain ⟨id', haddressee, hne⟩ := Moment.addressee_of_not_isFor hx
      exact { h with mirrors := projects.left id' haddressee hne }

end

/-- For each meeting, what is addressed to it is answered the same, and makes the same calls, if
whatever is addressed to other meetings is left out; and the meeting ends the same. -/
theorem meetings_do_not_interfere (s : Service) {now : Int64} {capacity : Nat}
    {chat : Collaborator ChatLink} {engine : Collaborator Push} {entropy : Entropy}
    {ms : List Moment} {d : Deployment}
    (course : Course s (.start now capacity chat engine entropy) ms d)
    (room : ∀ x ∈ ms, x.HasRoom) (id : String) :
    let kept := ms.filter (Moment.isFor s id)
    let again := replay s (.start now capacity chat engine entropy) kept
    again.1.map (Moment.sight s) = kept.map (Moment.sight s) ∧
      again.2.memory.find? id = d.memory.find? id ∧
      again.2.memory.chatLink? id = d.memory.chatLink? id ∧
      again.2.chat.calls = chat.calls ++ kept.reverse.flatMap Moment.closings ∧
      again.2.engine.calls = engine.calls ++ kept.reverse.flatMap Moment.pushes := by
  have h := course.replays (.start id now capacity chat engine entropy) room
  have slot := h.mirrors.memory.slot
  exact ⟨h.sights, congrArg Slot.meeting? slot, congrArg Slot.link? slot, h.closings, h.pushes⟩

namespace Moment.Sample

open System.Sample

/-- The draws of octets, each of which gives its number again and again. -/
def entropy (draws : Nat) : Entropy :=
  ⟨fun k n => some (Vector.replicate n (UInt8.ofNat k)), draws⟩

def state (meetings : List Meeting) (draws : Nat) (tally : Metrics.Tally) : Deployment :=
  { Deployment.start 0 2 .accepting .accepting (entropy draws) with
    memory := ⟨2, meetings, .empty⟩, tally }

theorem entropy_state (meetings : List Meeting) (draws : Nat) (tally : Metrics.Tally) :
    (state meetings draws tally).entropy = entropy draws := rfl

def first (s : Service) : Meeting :=
  let token := s.cipher.issue (Vector.replicate _ 1) id
  .ofDraft draft id ("/m/" ++ token) 0 s.defaultTtl

def noted (s : Service) : Meeting := { first s with callId := some "c", bridged := true }

/-- A meeting is created, a call is noted in it, and another meeting is created; the last first. -/
def moments (s : Service) (tally₁ tally₂ : Metrics.Tally) : List Moment :=
  [Happening.moment s (state [noted s] 2 tally₂) (.command (.create draft)),
    Happening.moment s (state [first s] 2 tally₁)
      (.command (.attachCall System.Sample.id "c" true)),
    Happening.moment s (state [] 0 .empty) (.command (.create draft))]

section

variable (s : Service) (tally tally' : Metrics.Tally)

theorem create_first : ∃ tally',
    ((Happening.command (.create draft)).befall s (state [] 0 tally)).2 =
      state [first s] 2 tally' := ⟨_, rfl⟩

theorem attach_first : ∃ tally',
    ((Happening.command (.attachCall System.Sample.id "c" true)).befall s
      (state [first s] 2 tally)).2 = state [noted s] 2 tally' := by
  simp only [Happening.befall, Platform.obey]
  unfold Service.attachCall
  rw [resolve_id]
  exact ⟨_, rfl⟩

theorem course_moments : ∃ tally₁ tally₂ d,
    Course s (.start 0 2 .accepting .accepting (entropy 0)) (moments s tally₁ tally₂) d := by
  obtain ⟨tally₁, h₁⟩ := create_first s .empty
  obtain ⟨tally₂, h₂⟩ := attach_first s tally₁
  have course : Course s (.start 0 2 .accepting .accepting (entropy 0)) [] (state [] 0 .empty) :=
    .start
  have course := course.next (.command (.create draft))
  rw [h₁] at course
  have course := course.next (.command (.attachCall System.Sample.id "c" true))
  rw [h₂] at course
  exact ⟨tally₁, tally₂, _, course.next _⟩

theorem hasRoom_moments : ∀ x ∈ moments s tally tally', x.HasRoom := by
  intro x hx _
  simp only [moments, List.mem_cons, List.not_mem_nil, or_false] at hx
  rcases hx with rfl | rfl | rfl
  · exact Nat.one_lt_two
  · exact Nat.one_lt_two
  · exact Nat.zero_lt_two

theorem referent?_id : s.referent? System.Sample.id = some System.Sample.id := by
  have hid : Meeting.Identifier.isIdentifier System.Sample.id := by decide +kernel
  have hnone : (Token.decode System.Sample.id).toOption = none := by decide +kernel
  unfold Service.referent?
  cases h : Token.decode System.Sample.id with
  | ok raw => simp [h, Except.toOption] at hnone
  | error fault =>
    rw [s.cipher.redeem_of_decode_error h]
    exact if_pos hid

theorem filter_moments :
    (moments s tally tally').filter (Moment.isFor s System.Sample.id) =
      (moments s tally tally').tail := by
  have early : (Command.create draft).newId? (entropy 0) = some System.Sample.id := by
    decide +kernel
  have late : (Command.create draft).newId? (entropy 2) = some "CCCCCCCCCCCCCCCCCCCCC" := by
    decide +kernel
  have hne : "CCCCCCCCCCCCCCCCCCCCC" ≠ System.Sample.id := by decide +kernel
  simp [moments, Moment.isFor, Happening.moment, Happening.addressee?, entropy_state, early, late,
    referent?_id, hne]

end

end Moment.Sample

open Moment.Sample System.Sample in
/-- What is seen of the first of two meetings does not depend on the second. -/
theorem first_of_two_alone : ∃ ms d,
    Course service (.start 0 2 .accepting .accepting (entropy 0)) ms d ∧ (∀ x ∈ ms, x.HasRoom) ∧
    ms.length = 3 ∧ ms.filter (Moment.isFor service System.Sample.id) = ms.tail ∧
    (replay service (.start 0 2 .accepting .accepting (entropy 0)) ms.tail).2.memory.find?
      System.Sample.id = d.memory.find? System.Sample.id := by
  obtain ⟨tally₁, tally₂, d, course⟩ := course_moments service
  have room := hasRoom_moments service tally₁ tally₂
  have kept := filter_moments service tally₁ tally₂
  obtain ⟨_, alone, _⟩ := meetings_do_not_interfere service course room System.Sample.id
  rw [kept] at alone
  exact ⟨_, d, course, room, rfl, kept, alone⟩

end Rendezvous
