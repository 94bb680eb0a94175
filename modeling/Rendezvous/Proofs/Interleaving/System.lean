import Rendezvous.Deployment
import Rendezvous.Proofs.Interleaving.Exchange
import Rendezvous.Service.Background
/-!
The service at work: requests of callers, the handling of events and sweeps go on at the same time,
over one deployment. Each step answers one question of one of them. Callers may give up between two
steps; events are handled one after the other; an identifier that has been drawn is not drawn again.
-/
namespace Rendezvous

inductive Activity where
  | create (draft : Meeting.Draft)
  | get (token : String)
  | delete (token : String)
  | submit (token answer : String)
  | event (payload : List UInt8)
  | sweep

namespace Activity

@[reducible] def Result : Activity → Type
  | create _ => Except Fault Meeting.Ticket
  | get _ => Except Fault (Option Meeting.View)
  | delete _ | submit .. => Except Fault Unit
  | event _ => Call.Outcome
  | sweep => Unit

def program (s : Service) : (a : Activity) → Program a.Result
  | create draft => (s.create draft).run
  | get token => (s.get token).run
  | delete token => (s.delete token).run
  | submit token answer => (s.submit token answer).run
  | event payload => s.takeEvent payload
  | sweep => Service.Sweeper.sweeps 1

def isEvent : Activity → Bool
  | event _ => true
  | _ => false

def isRequest : Activity → Bool
  | event _ | sweep => false
  | _ => true

end Activity

/-- An activity and what is left of its program: nothing if it was given up. -/
structure Task where
  activity : Activity
  rest : Option (Program activity.Result)

namespace Task

def start (s : Service) (a : Activity) : Task := ⟨a, some (a.program s)⟩

def Finished (t : Task) : Prop := ∃ r, t.rest = some (.done r)

end Task

structure Entry where
  task : Nat
  exchange : Exchange

structure System where
  deployment : Deployment
  /-- all that have ever begun; the number of a task is its place -/
  tasks : List Task
  /-- all questions that were answered, the last one first -/
  trace : List Entry

inductive Exchange.Draws : Exchange → String → Prop where
  | intro (octets : Vector UInt8 Meeting.Identifier.size) :
    Draws ⟨.octets Meeting.Identifier.size, some octets⟩ (Meeting.Identifier.ofOctets octets)

namespace System

def start (now : Int64) (capacity : Nat) (chat : Collaborator ChatLink) (engine : Collaborator Push)
    (entropy : Entropy) : System :=
  ⟨.start now capacity chat engine entropy, [], []⟩

def meetings (w : System) : List Meeting := w.deployment.memory.meetings

def history (trace : List Entry) (i : Nat) : List Exchange :=
  (trace.filter (·.task == i)).map Entry.exchange

def Fresh (w : System) (e : Exchange) : Prop :=
  ∀ id, e.Draws id → ∀ x ∈ w.trace, ¬x.exchange.Draws id

def turn (w : System) (i : Nat) (a : Activity) (q : Question)
    (next : q.Answer → Program a.Result) : System where
  deployment := (w.deployment.handle q).2
  tasks := w.tasks.set i ⟨a, some (next (w.deployment.handle q).1)⟩
  trace := ⟨i, q, (w.deployment.handle q).1⟩ :: w.trace

theorem trace_turn (w : System) (i : Nat) (a : Activity) (q : Question)
    (next : q.Answer → Program a.Result) :
    (w.turn i a q next).trace = ⟨i, q, (w.deployment.handle q).1⟩ :: w.trace := rfl

theorem tasks_turn (w : System) (i : Nat) (a : Activity) (q : Question)
    (next : q.Answer → Program a.Result) :
    (w.turn i a q next).tasks = w.tasks.set i ⟨a, some (next (w.deployment.handle q).1)⟩ := rfl

inductive Answers (w : System) (i : Nat) (a : Activity) : Exchange → System → Prop where
  | intro (q : Question) (next : q.Answer → Program a.Result)
      (asks : w.tasks[i]? = some ⟨a, some (.ask q next)⟩)
      (fresh : w.Fresh ⟨q, (w.deployment.handle q).1⟩) :
      Answers w i a ⟨q, (w.deployment.handle q).1⟩ (w.turn i a q next)

inductive Step (s : Service) : System → System → Prop where
  /-- An activity begins; an event is taken up when those before it have been handled. -/
  | begin (w : System) (a : Activity)
      (free : a.isEvent → ∀ t ∈ w.tasks, t.activity.isEvent → t.Finished) :
      Step s w { w with tasks := w.tasks ++ [.start s a] }
  | answer {w w' : System} {i : Nat} {a : Activity} {e : Exchange} (answers : w.Answers i a e w') :
      Step s w w'
  | abandon (w : System) (i : Nat) (a : Activity) (p : Program a.Result)
      (runs : w.tasks[i]? = some ⟨a, some p⟩) (request : a.isRequest) :
      Step s w { w with tasks := w.tasks.set i ⟨a, none⟩ }
  /-- Anything but the meetings changes: the clocks, the links to chats, what the collaborators
  will answer, what will be drawn, which operations of the store fail. -/
  | drift (w : System) (d : Deployment)
      (kept : d.memory.meetings = w.deployment.memory.meetings)
      (bounded : d.memory.capacity = w.deployment.memory.capacity) :
      Step s w { w with deployment := d }

inductive Steps (s : Service) : System → System → Prop where
  | refl (w : System) : Steps s w w
  | tail {w w' w'' : System} (steps : Steps s w w') (step : Step s w' w'') : Steps s w w''

def Reachable (s : Service) (w : System) : Prop :=
  ∃ now capacity chat engine entropy, Steps s (start now capacity chat engine entropy) w

theorem Steps.trans {s : Service} {u v w : System} (h : Steps s u v) (h' : Steps s v w) :
    Steps s u w := by
  induction h' with
  | refl => exact h
  | tail _ step ih => exact ih.tail step

theorem Steps.single {s : Service} {w w' : System} (h : Step s w w') : Steps s w w' :=
  .tail (.refl w) h

theorem Reachable.steps {s : Service} {w w' : System} (h : Reachable s w) (h' : Steps s w w') :
    Reachable s w' := by
  obtain ⟨now, capacity, chat, engine, entropy, hw⟩ := h
  exact ⟨now, capacity, chat, engine, entropy, hw.trans h'⟩

theorem Reachable.induction {s : Service} {P : System → Prop}
    (start : ∀ now capacity chat engine entropy, P (start now capacity chat engine entropy))
    (step : ∀ {w w'}, Reachable s w → P w → Step s w w' → P w') {w : System} (h : Reachable s w) :
    P w := by
  obtain ⟨now, capacity, chat, engine, entropy, hw⟩ := h
  have h₀ : Reachable s (.start now capacity chat engine entropy) :=
    ⟨now, capacity, chat, engine, entropy, .refl _⟩
  have hP := start now capacity chat engine entropy
  induction hw with
  | refl => exact hP
  | tail hsteps hstep ih => exact step (h₀.steps hsteps) ih hstep

theorem history_cons_self (trace : List Entry) (i : Nat) (e : Exchange) :
    history (⟨i, e⟩ :: trace) i = e :: history trace i := by
  simp [history]

theorem history_cons_ne (trace : List Entry) {i j : Nat} (e : Exchange) (h : i ≠ j) :
    history (⟨i, e⟩ :: trace) j = history trace j := by
  simp [history, h]

theorem mem_history {trace : List Entry} {i : Nat} {e : Exchange} :
    e ∈ history trace i ↔ ⟨i, e⟩ ∈ trace := by
  simp only [history, List.mem_map, List.mem_filter, beq_iff_eq]
  constructor
  · rintro ⟨⟨j, x⟩, ⟨hx, rfl⟩, rfl⟩
    exact hx
  · intro h
    exact ⟨⟨i, e⟩, ⟨h, rfl⟩, rfl⟩

theorem fresh_of_ne {w : System} {e : Exchange} (h : e.question ≠ .octets Meeting.Identifier.size) :
    w.Fresh e := by
  rintro id ⟨octets⟩
  exact absurd rfl h

end System

end Rendezvous
