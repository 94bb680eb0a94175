import Rendezvous.Fault
import Rendezvous.Meeting.Basic

namespace Rendezvous.Store

structure Memory where
  capacity : Nat
  /-- the most recently used first -/
  meetings : List Meeting
  chats : Dictionary ChatLink

namespace Memory

def empty (capacity : Nat) : Memory := ⟨capacity, [], .empty⟩

def size (s : Memory) : Nat := s.meetings.length

def isEmpty (s : Memory) : Bool := s.meetings.isEmpty

def find? (s : Memory) (id : String) : Option Meeting := s.meetings.find? (·.id == id)

def without (s : Memory) (id : String) : List Meeting := s.meetings.filter (·.id != id)

theorem find?_mem {s : Memory} {id : String} {m : Meeting} (h : s.find? id = some m) :
    m ∈ s.meetings ∧ m.id = id := by
  refine ⟨List.mem_of_find?_eq_some h, ?_⟩
  simpa using List.find?_some h

theorem mem_without {s : Memory} {id : String} {m : Meeting} :
    m ∈ s.without id ↔ m ∈ s.meetings ∧ m.id ≠ id := by
  simp [without]

/-- Puts a meeting in front, in the place of one with its identifier, and drops what is too much. -/
def push (s : Memory) (m : Meeting) : Memory :=
  { s with meetings := (m :: s.without m.id).take s.capacity }

def promote (s : Memory) (m : Meeting) : Memory := { s with meetings := m :: s.without m.id }

theorem mem_promote {s : Memory} {m n : Meeting} :
    n ∈ (s.promote m).meetings ↔ n = m ∨ n ∈ s.meetings ∧ n.id ≠ m.id := by
  simp [promote, mem_without]

/-- Drops a meeting; its chat stays linked. -/
def pop (s : Memory) (id : String) : Memory := { s with meetings := s.without id }

def create (s : Memory) (now : Int64) (m : Meeting) : Except Fault Unit × Memory :=
  if (s.find? m.id).any (·.isVisibleAt now) then (.error .alreadyExists, s)
  else (.ok (), s.push m)

/-- Looks a meeting up. One that is not visible any more is dropped. -/
def get (s : Memory) (now : Int64) (id : String) : Except Fault Meeting × Memory :=
  match s.find? id with
  | none => (.error .notFound, s)
  | some m => if m.isVisibleAt now then (.ok m, s.promote m) else (.error .notFound, s.pop id)

def delete (s : Memory) (id : String) : Except Fault Unit × Memory :=
  match s.find? id with
  | none => (.error .notFound, s)
  | some _ => (.ok (), { s.pop id with chats := s.chats.erase id })

def modify (s : Memory) (id : String) (f : Meeting → Meeting) : Except Fault Unit × Memory :=
  match s.find? id with
  | none => (.error .notFound, s)
  | some m => (.ok (), s.promote (f m))

def setCall (s : Memory) (id callId : String) (bridged : Bool) : Except Fault Unit × Memory :=
  s.modify id fun m => { m with callId := some callId, bridged }

def setSatisfaction (s : Memory) (id value : String) : Except Fault Unit × Memory :=
  s.modify id fun m => { m with satisfaction := some value }

/-- Drops the meetings that have expired by `now` and the links to their chats, and counts them. -/
def deleteExpired (s : Memory) (now : Int64) : Nat × Memory :=
  let expired := s.meetings.filter (·.isExpiredAt now)
  (expired.length,
    { s with
      meetings := s.meetings.filter fun m => !m.isExpiredAt now
      chats := expired.foldl (fun chats m => chats.erase m.id) s.chats })

def chatLink? (s : Memory) (id : String) : Option ChatLink := s.chats.get? id

def linkChat (s : Memory) (id : String) (link : ChatLink) : Memory :=
  { s with chats := s.chats.insert id link }

def unlinkChat (s : Memory) (id : String) : Option ChatLink × Memory :=
  (s.chatLink? id, { s with chats := s.chats.erase id })

end Memory

end Rendezvous.Store
