import Rendezvous.Proofs.Store.Ledger
import Rendezvous.Service.Background

namespace Rendezvous

/-- An expired meeting is told as a missing one. -/
def Fault.blur : Fault → Fault
  | expired => notFound
  | fault => fault

inductive Command where
  | create (draft : Meeting.Draft)
  | get (token : String)
  | delete (token : String)
  | attachCall (reference callId : String) (bridged : Bool)
  | submit (token answer : String)
  | sweep (cutoff : Int64)
  | setClock (now : Int64)
  | linkChat (id : String) (link : ChatLink)
  | unlinkChat (id : String)

/-- What a command is answered with. How many meetings a sweep has removed is not told. -/
inductive Reply where
  | created (r : Except Fault Meeting.Ticket)
  | got (r : Except Fault (Option Meeting.View))
  | deleted (r : Except Fault Unit)
  | attached (r : Except Fault Service.CallLink)
  | submitted (r : Except Fault Unit)
  | silent

def Reply.blur : Reply → Reply
  | created r => created (r.mapError Fault.blur)
  | got r => got (r.mapError Fault.blur)
  | deleted r => deleted (r.mapError Fault.blur)
  | attached r => attached (r.mapError Fault.blur)
  | submitted r => submitted (r.mapError Fault.blur)
  | silent => silent

structure Platform (σ : Type) where
  handle : σ → (q : Question) → q.Answer × σ
  setClock : σ → Int64 → σ
  linkChat : σ → String → ChatLink → σ
  unlinkChat : σ → String → σ
  chat : σ → Collaborator ChatLink
  engine : σ → Collaborator Push

/-- A deployment in which the service and the store read one clock. -/
def Deployment.platform : Platform Deployment where
  handle := handle
  setClock d now := { d with clock := d.clock.set now, storeClock := d.storeClock.set now }
  linkChat d id link := { d with memory := d.memory.linkChat id link }
  unlinkChat d id := { d with memory := (d.memory.unlinkChat id).2 }
  chat := chat
  engine := engine

def Archive.platform : Platform Archive where
  handle := handle
  setClock b now := { b with clock := b.clock.set now }
  linkChat b id link := { b with ledger := b.ledger.linkChat id link }
  unlinkChat b id := { b with ledger := b.ledger.unlinkChat id }
  chat := chat
  engine := engine

namespace Platform

variable {σ α : Type} (P : Platform σ)

def tell (p : Program α) (f : α → Reply) (b : σ) : Reply × σ :=
  let (a, b) := p.run P.handle b
  (f a, b)

def obey (s : Service) : Command → σ → Reply × σ
  | .create draft => P.tell (s.create draft).run .created
  | .get token => P.tell (s.get token).run .got
  | .delete token => P.tell (s.delete token).run .deleted
  | .attachCall reference callId bridged =>
    P.tell (s.attachCall reference callId bridged).run .attached
  | .submit token answer => P.tell (s.submit token answer).run .submitted
  | .sweep cutoff => P.tell (Service.sweep cutoff) fun _ => .silent
  | .setClock now => fun b => (.silent, P.setClock b now)
  | .linkChat id link => fun b => (.silent, P.linkChat b id link)
  | .unlinkChat id => fun b => (.silent, P.unlinkChat b id)

end Platform

structure Observation where
  reply : Reply
  chat : Collaborator ChatLink
  engine : Collaborator Push

namespace Platform

variable {σ : Type} (P : Platform σ)

def observe (s : Service) : List Command → σ → List Observation
  | [], _ => []
  | c :: cs, b =>
    let (reply, b) := P.obey s c b
    ⟨reply.blur, P.chat b, P.engine b⟩ :: observe s cs b

theorem observe_cons (s : Service) (c : Command) (cs : List Command) (b : σ) :
    P.observe s (c :: cs) b =
      ⟨(P.obey s c b).1.blur, P.chat (P.obey s c b).2, P.engine (P.obey s c b).2⟩ ::
        P.observe s cs (P.obey s c b).2 := rfl

end Platform

namespace Command

def newId? (entropy : Entropy) : Command → Option String
  | create draft => do
    let _ ← draft.tidy.toOption
    let octets ← entropy.draw entropy.draws Meeting.Identifier.size
    let _ ← entropy.draw (entropy.draws + 1) Token.nonceLength
    return Meeting.Identifier.ofOctets octets
  | _ => none

/-- When a command may be given, if meetings with the spent identifiers have been stored before. -/
structure Admissible (s : Service) (spent : List String) (d : Deployment) (b : Archive)
    (c : Command) : Prop where
  fresh : ∀ id, c.newId? d.entropy = some id → id ∉ spent
  room : ∀ id, c.newId? d.entropy = some id → d.memory.size < d.memory.capacity
  /-- a meeting that has expired without a call is not deleted -/
  visible : ∀ token id m, c = delete token → s.cipher.redeem token = .ok id →
    b.ledger.meetings.get? id = some m → m.isVisibleAt b.clock.now
  forward : ∀ now, c = setClock now → b.clock.now ≤ now

/-- Whether each of some commands may be given when its turn comes. -/
def Orderly (s : Service) : List Command → List String → Deployment → Archive → Prop
  | [], _, _, _ => True
  | c :: cs, spent, d, b =>
    c.Admissible s spent d b ∧
      Orderly s cs ((c.newId? d.entropy).toList ++ spent) (Deployment.platform.obey s c d).2
        (Archive.platform.obey s c b).2

end Command

end Rendezvous
