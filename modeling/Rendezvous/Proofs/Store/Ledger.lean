import Rendezvous.Deployment

namespace Rendezvous

namespace Dictionary

variable {α : Type}

def filter (d : Dictionary α) (p : String → α → Bool) : Dictionary α :=
  ⟨d.entries.filter fun e => p e.1 e.2, d.increasing.filter _⟩

theorem get?_filter (d : Dictionary α) (p : String → α → Bool) (key : String) :
    (d.filter p).get? key = (d.get? key).filter (p key) := by
  obtain ⟨es, h⟩ := d
  simp only [filter, get?]
  induction es with
  | nil => rfl
  | cons e es ih =>
    obtain ⟨hfirst, hrest⟩ := List.pairwise_cons.mp h
    have ih := ih hrest
    by_cases hkey : e.1 = key
    · subst hkey
      have hnone : ∀ q : String × α → Bool, (es.filter q).find? (·.1 == e.1) = none := by
        intro q
        rw [List.find?_eq_none]
        intro x hx
        have hlt := hfirst x (List.mem_filter.mp hx).1
        have hne : x.1 ≠ e.1 := fun heq => String.lt_irrefl _ (heq ▸ hlt)
        simpa using hne
      by_cases hp : p e.1 e.2
      · simp [hp, Option.filter]
      · simp [hp, hnone, Option.filter]
    · by_cases hp : p e.1 e.2
      · simpa [hp, hkey] using ih
      · simpa [hp, hkey] using ih

end Dictionary

namespace Store

/-- The store that the service is meant to have, as large as need be. -/
structure Ledger where
  meetings : Dictionary Meeting
  chats : Dictionary ChatLink

namespace Ledger

def empty : Ledger := ⟨.empty, .empty⟩

def create (l : Ledger) (now : Int64) (m : Meeting) : Except Fault Unit × Ledger :=
  if (l.meetings.get? m.id).any (·.isVisibleAt now) then (.error .alreadyExists, l)
  else (.ok (), { l with meetings := l.meetings.insert m.id m })

def get (l : Ledger) (id : String) : Except Fault Meeting :=
  (l.meetings.get? id).elim (.error .notFound) .ok

def delete (l : Ledger) (id : String) : Except Fault Unit × Ledger :=
  match l.meetings.get? id with
  | none => (.error .notFound, l)
  | some _ => (.ok (), ⟨l.meetings.erase id, l.chats.erase id⟩)

def modify (l : Ledger) (id : String) (f : Meeting → Meeting) : Except Fault Unit × Ledger :=
  match l.meetings.get? id with
  | none => (.error .notFound, l)
  | some m => (.ok (), { l with meetings := l.meetings.insert id (f m) })

theorem delete_of_get?_eq_none {l : Ledger} {id : String} (h : l.meetings.get? id = none) :
    l.delete id = (.error .notFound, l) := by
  simp only [delete, h]

theorem delete_of_get? {l : Ledger} {id : String} {m : Meeting}
    (h : l.meetings.get? id = some m) :
    l.delete id = (.ok (), ⟨l.meetings.erase id, l.chats.erase id⟩) := by
  simp only [delete, h]

theorem modify_of_get? {l : Ledger} {id : String} {m : Meeting} (h : l.meetings.get? id = some m)
    (f : Meeting → Meeting) :
    l.modify id f = (.ok (), { l with meetings := l.meetings.insert id (f m) }) := by
  simp only [modify, h]

def isExpiredAt (l : Ledger) (now : Int64) (id : String) : Bool :=
  (l.meetings.get? id).any (·.isExpiredAt now)

def deleteExpired (l : Ledger) (now : Int64) : Nat × Ledger :=
  ((l.meetings.filter fun _ m => m.isExpiredAt now).entries.length,
    ⟨l.meetings.filter fun _ m => !m.isExpiredAt now,
      l.chats.filter fun id _ => !l.isExpiredAt now id⟩)

def linkChat (l : Ledger) (id : String) (link : ChatLink) : Ledger :=
  { l with chats := l.chats.insert id link }

def unlinkChat (l : Ledger) (id : String) : Ledger := { l with chats := l.chats.erase id }

def perform (l : Ledger) (now : Int64) : (op : Operation) → op.Answer × Ledger
  | .create m => l.create now m
  | .get id => (l.get id, l)
  | .delete id => l.delete id
  | .setCall id callId bridged => l.modify id fun m => { m with callId := some callId, bridged }
  | .setSatisfaction id value => l.modify id fun m => { m with satisfaction := some value }
  | .deleteExpired cutoff =>
    let (count, l) := l.deleteExpired cutoff
    (.ok count, l)
  | .chatLink id => (.ok (l.chats.get? id), l)
  | .ping => (.ok (), l)

end Ledger

end Store

/-- What the programs of the service run in if the store is a ledger that reads the same clock. -/
structure Archive where
  clock : Clock
  ledger : Store.Ledger
  chat : Collaborator ChatLink
  engine : Collaborator Push
  entropy : Entropy

namespace Archive

def start (now : Int64) (chat : Collaborator ChatLink) (engine : Collaborator Push)
    (entropy : Entropy) : Archive :=
  ⟨⟨now⟩, .empty, chat, engine, entropy⟩

def handle (b : Archive) : (q : Question) → q.Answer × Archive
  | .clock => (b.clock.now, b)
  | .octets n =>
    (b.entropy.draw b.entropy.draws n,
      { b with entropy := { b.entropy with draws := b.entropy.draws + 1 } })
  | .store op =>
    let (answer, ledger) := b.ledger.perform b.clock.now op
    (answer, { b with ledger })
  | .closeChat link =>
    let (answer, chat) := b.chat.call link
    (answer, { b with chat })
  | .setVariables domainId callId vars =>
    let (answer, engine) := b.engine.call ⟨domainId, callId, vars⟩
    (answer, { b with engine })
  | .count _ => ((), b)

end Archive

end Rendezvous
