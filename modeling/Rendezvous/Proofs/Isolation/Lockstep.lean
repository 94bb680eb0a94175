import Rendezvous.Proofs.Isolation.Attendance

namespace Rendezvous

open Store

namespace Collaborator

variable {α : Type}

def fixed? : Collaborator α → Option (Except Fault Unit)
  | absent answer => some answer
  | present .. => none

def next : Collaborator α → Nat → Except Fault Unit
  | absent answer, _ => answer
  | present answer calls, n => answer (calls.length + n)

def attunedTo : Collaborator α → Collaborator α → Collaborator α
  | absent answer, _ => absent answer
  | present _ calls, c => present (fun n => c.next (n - calls.length)) calls

theorem call_fst (c : Collaborator α) (a : α) : (c.call a).1 = c.next 0 := by
  cases c with
  | absent answer => rfl
  | present answer calls => rfl

theorem fixed?_call (c : Collaborator α) (a : α) : (c.call a).2.fixed? = c.fixed? := by
  cases c with
  | absent answer => rfl
  | present answer calls => rfl

theorem next_call (c : Collaborator α) (a : α) (n : Nat) :
    (c.call a).2.next n = c.next (n + 1) := by
  cases c with
  | absent answer => rfl
  | present answer calls =>
    change answer ((calls ++ [_]).length + n) = answer (calls.length + (n + 1))
    rw [List.length_append, List.length_singleton, Nat.add_assoc, Nat.add_comm 1]

theorem calls_call (c : Collaborator α) (a : α) :
    (c.call a).2.calls = c.calls ++ if c.fixed?.isSome then [] else [(a, c.next 0)] := by
  cases c with
  | absent answer => rfl
  | present answer calls => rfl

/-- That two collaborators will answer the same, and have been called the same since they were two
others. -/
structure InTune (c₀ c₀' c c' : Collaborator α) : Prop where
  fixed : c'.fixed? = c.fixed?
  next : ∀ n, c'.next n = c.next n
  calls : ∃ cs, c.calls = c₀.calls ++ cs ∧ c'.calls = c₀'.calls ++ cs

namespace InTune

variable {c₀ c₀' c c' : Collaborator α}

theorem start (h : c'.fixed? = c.fixed?) :
    InTune c (c'.attunedTo c) c (c'.attunedTo c) where
  fixed := by
    rw [← h]
    cases c' <;> rfl
  next n := by
    cases c' with
    | present answer calls => exact congrArg c.next (Nat.add_sub_cancel_left ..)
    | absent answer =>
      cases c with
      | absent answer' => exact Option.some.inj h
      | present => cases h
  calls := ⟨[], (List.append_nil _).symm, (List.append_nil _).symm⟩

theorem call (h : InTune c₀ c₀' c c') (a : α) :
    (c'.call a).1 = (c.call a).1 ∧ InTune c₀ c₀' (c.call a).2 (c'.call a).2 := by
  refine ⟨?_, ?_, fun n => ?_, ?_⟩
  · rw [call_fst, call_fst, h.next]
  · rw [fixed?_call, fixed?_call, h.fixed]
  · rw [next_call, next_call, h.next]
  · obtain ⟨cs, hcs, hcs'⟩ := h.calls
    refine ⟨cs ++ if c.fixed?.isSome then [] else [(a, c.next 0)], ?_, ?_⟩
    · rw [calls_call, hcs, List.append_assoc]
    · rw [calls_call, h.fixed, h.next, hcs', List.append_assoc]

theorem since (h : InTune c₀ c₀' c c') :
    c'.calls.drop c₀'.calls.length = c.calls.drop c₀.calls.length ∧
      c'.calls = c₀'.calls ++ c.calls.drop c₀.calls.length := by
  obtain ⟨cs, hcs, hcs'⟩ := h.calls
  rw [hcs, hcs', List.drop_left, List.drop_left]
  exact ⟨rfl, rfl⟩

end InTune

theorem calls_attunedTo (c' c : Collaborator α) : (c'.attunedTo c).calls = c'.calls := by
  cases c' with
  | absent answer => rfl
  | present answer calls => rfl

end Collaborator

namespace Deployment

variable {id : String} {d d' d₀ d₀' : Deployment}

/-- That of two deployments with the same clocks, whose stores work, the second has no meeting but
one, and that as the first has it. -/
structure Mirrors (id : String) (d d' : Deployment) : Prop where
  clock : d'.clock = d.clock
  storeClock : d'.storeClock = d.storeClock
  healthy : d.Healthy
  healthy' : d'.Healthy
  memory : Memory.Mirrors id d.memory d'.memory
  chat : d'.chat.fixed? = d.chat.fixed?
  engine : d'.engine.fixed? = d.engine.fixed?

/-- A deployment in which the same will be drawn as in another one, and calls will be answered the
same. -/
def attunedTo (d' d : Deployment) : Deployment :=
  { d' with
    entropy := d.entropy
    chat := d'.chat.attunedTo d.chat
    engine := d'.engine.attunedTo d.engine }

/-- That two deployments, of which the second has no meeting but one, have come from two others in
the same way. -/
structure Abreast (id : String) (d₀ d₀' d d' : Deployment) : Prop where
  mirrors : Mirrors id d d'
  entropy : d'.entropy = d.entropy
  chat : Collaborator.InTune d₀.chat d₀'.chat d.chat d'.chat
  engine : Collaborator.InTune d₀.engine d₀'.engine d.engine d'.engine

theorem Mirrors.start (id : String) (now : Int64) (capacity : Nat) (chat : Collaborator ChatLink)
    (engine : Collaborator Push) (entropy : Entropy) :
    Mirrors id (.start now capacity chat engine entropy)
      (.start now capacity chat engine entropy) where
  clock := rfl
  storeClock := rfl
  healthy _ := rfl
  healthy' _ := rfl
  memory := .empty id capacity
  chat := rfl
  engine := rfl

theorem Mirrors.abreast (h : Mirrors id d d') :
    Abreast id d (d'.attunedTo d) d (d'.attunedTo d) where
  mirrors := { h with
    chat := (Collaborator.InTune.start h.chat).fixed
    engine := (Collaborator.InTune.start h.engine).fixed }
  entropy := rfl
  chat := .start h.chat
  engine := .start h.engine

theorem Abreast.handle (h : Abreast id d₀ d₀' d d') {q : Question} (hq : q.Regards id)
    (room : d.HasRoom q) : (d'.handle q).1 = (d.handle q).1 ∧
      Abreast id d₀ d₀' (d.handle q).2 (d'.handle q).2 := by
  have mirrors := h.mirrors
  cases q with
  | clock => exact ⟨congrArg Clock.now mirrors.clock, h⟩
  | octets n =>
    have draw : d'.entropy.draw d'.entropy.draws n = d.entropy.draw d.entropy.draws n := by
      rw [h.entropy]
    have entropy : (d'.handle (.octets n)).2.entropy = (d.handle (.octets n)).2.entropy :=
      congrArg (fun e => { e with draws := e.draws + 1 }) h.entropy
    exact ⟨draw, { h with entropy, mirrors := { mirrors with } }⟩
  | store op =>
    obtain ⟨tally, hperform⟩ := mirrors.healthy.perform op
    obtain ⟨tally', hperform'⟩ := mirrors.healthy'.perform op
    obtain ⟨answer, memory⟩ := mirrors.memory.perform hq (room op rfl)
    rw [congrArg Clock.now mirrors.storeClock] at hperform'
    rw [hperform, hperform']
    exact ⟨answer, { h with mirrors := { mirrors with memory } }⟩
  | closeChat link =>
    obtain ⟨answer, chat⟩ := h.chat.call link
    exact ⟨answer, { h with chat, mirrors := { mirrors with chat := chat.fixed } }⟩
  | setVariables domainId callId vars =>
    obtain ⟨answer, engine⟩ := h.engine.call ⟨domainId, callId, vars⟩
    exact ⟨answer, { h with engine, mirrors := { mirrors with engine := engine.fixed } }⟩
  | count event => exact ⟨rfl, { h with mirrors := { mirrors with } }⟩

/-- A program about the one meeting ends with the same in both deployments. -/
theorem Abreast.run {α : Type} (h : Abreast id d₀ d₀' d d') {p : Program α} (hp : p.Attends id d) :
    (d'.run p).1 = (d.run p).1 ∧ Abreast id d₀ d₀' (d.run p).2 (d'.run p).2 := by
  induction p generalizing d d' with
  | done a => exact ⟨rfl, h⟩
  | ask q next ih =>
    obtain ⟨⟨hq, room⟩, hnext⟩ := Program.attends_ask.mp hp
    obtain ⟨answer, abreast⟩ := h.handle hq room
    have hrun : d'.run (.ask q next) = (d'.handle q).2.run (next (d'.handle q).1) := rfl
    -- the answers agree, so both runs go on with one program
    rw [hrun, answer]
    exact ih _ abreast hnext

theorem Mirrors.handle_other (h : Mirrors id d d') {q : Question} {id' : String}
    (hq : q.Regards id') (hne : id' ≠ id) (room : d.HasRoom q) : Mirrors id (d.handle q).2 d' := by
  cases q with
  | clock | octets n | count event => exact { h with }
  | store op =>
    obtain ⟨tally, hperform⟩ := h.healthy.perform op
    rw [hperform]
    exact { h with memory := h.memory.perform_other hq hne (room op rfl) }
  | closeChat link =>
    exact { h with chat := h.chat.trans (d.chat.fixed?_call link).symm }
  | setVariables domainId callId vars =>
    exact { h with engine := h.engine.trans (d.engine.fixed?_call _).symm }

/-- A program about another meeting leaves the one as it is. -/
theorem Mirrors.run_other {α : Type} (h : Mirrors id d d') {p : Program α} {id' : String}
    (hp : p.Attends id' d) (hne : id' ≠ id) : Mirrors id (d.run p).2 d' := by
  induction p generalizing d with
  | done a => exact h
  | ask q next ih =>
    obtain ⟨⟨hq, room⟩, hnext⟩ := Program.attends_ask.mp hp
    exact ih _ (h.handle_other hq hne room) hnext

end Deployment

end Rendezvous
