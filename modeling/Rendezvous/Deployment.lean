import Rendezvous.Clock
import Rendezvous.Collaborator.Client
import Rendezvous.Collaborator.Log
import Rendezvous.Program

namespace Rendezvous

/-- Octets that nobody can foretell: what the draw of each number gives. -/
structure Entropy where
  draw : Nat → (size : Nat) → Option (Vector UInt8 size)
  draws : Nat := 0

structure Push where
  domainId : Int64
  callId : String
  vars : Dictionary String
deriving DecidableEq

structure Deployment where
  clock : Clock
  storeClock : Clock
  memory : Store.Memory
  /-- how operations fail that are made to fail -/
  faults : Store.Kind → Option Fault
  chat : Collaborator ChatLink
  engine : Collaborator Push
  entropy : Entropy
  tally : Metrics.Tally

namespace Deployment

def start (now : Int64) (capacity : Nat) (chat : Collaborator ChatLink) (engine : Collaborator Push)
    (entropy : Entropy) : Deployment where
  clock := ⟨now⟩
  storeClock := ⟨now⟩
  memory := .empty capacity
  faults := fun _ => none
  chat := chat
  engine := engine
  entropy := entropy
  tally := .empty

def count (d : Deployment) (event : Metrics.Event) : Deployment :=
  { d with tally := d.tally.count event }

/-- An operation of the store. One that is made to fail does not reach it. -/
def perform (d : Deployment) (op : Store.Operation) : op.Answer × Deployment :=
  match d.faults op.kind with
  | some fault => (.error fault, d)
  | none =>
    let (answer, memory) := d.memory.perform d.storeClock.now op
    let d := { d with memory }
    (answer, (op.event? Store.Memory.backend answer).elim d d.count)

theorem perform_of_fault {d : Deployment} {op : Store.Operation} {fault : Fault}
    (h : d.faults op.kind = some fault) : d.perform op = (.error fault, d) := by
  simp only [perform, h]

theorem perform_of_healthy {d : Deployment} {op : Store.Operation} (h : d.faults op.kind = none) :
    ∃ tally, d.perform op = ((d.memory.perform d.storeClock.now op).1,
      { d with memory := (d.memory.perform d.storeClock.now op).2, tally }) := by
  unfold perform
  rw [h]
  dsimp only
  cases op.event? Store.Memory.backend (d.memory.perform d.storeClock.now op).1 with
  | none => exact ⟨d.tally, rfl⟩
  | some event => exact ⟨d.tally.count event, rfl⟩

def handle (d : Deployment) : (q : Question) → q.Answer × Deployment
  | .clock => (d.clock.now, d)
  | .octets n =>
    (d.entropy.draw d.entropy.draws n,
      { d with entropy := { d.entropy with draws := d.entropy.draws + 1 } })
  | .store op => d.perform op
  | .closeChat link =>
    let (answer, chat) := d.chat.call link
    (answer, { d with chat })
  | .setVariables domainId callId vars =>
    let (answer, engine) := d.engine.call ⟨domainId, callId, vars⟩
    (answer, { d with engine })
  | .count event => ((), d.count event)

def run {α : Type} (d : Deployment) (p : Program α) : α × Deployment := p.run handle d

def setFault (d : Deployment) (kind : Store.Kind) (fault : Fault) : Deployment :=
  { d with faults := fun k => if k = kind then some fault else d.faults k }

def clearFaults (d : Deployment) : Deployment := { d with faults := fun _ => none }

end Deployment

end Rendezvous
