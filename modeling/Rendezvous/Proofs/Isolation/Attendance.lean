import Rendezvous.Proofs.Isolation.Address

namespace Rendezvous

open Store

/-- Whether the meeting that a question creates, if it does, finds room. -/
def Deployment.HasRoom (d : Deployment) (q : Question) : Prop :=
  ∀ op, q = .store op → d.memory.HasRoom d.storeClock.now op

/-- Whether all that a program asks in a deployment is about the meeting with an identifier, and
finds room. -/
def Program.Attends {α : Type} (id : String) : Program α → Deployment → Prop
  | done _, _ => True
  | ask q next, d =>
    (q.Regards id ∧ d.HasRoom q) ∧ (next (d.handle q).1).Attends id (d.handle q).2

section

variable {α β : Type} {d : Deployment} {id : String}

theorem Program.attends_ask {q : Question} {next : q.Answer → Program α} :
    (ask q next).Attends id d ↔ (q.Regards id ∧ d.HasRoom q) ∧
      (next (d.handle q).1).Attends id (d.handle q).2 :=
  Iff.rfl

theorem Tends.attends {past : List Exchange} {q : Question} (h : Tends id past q) (d : Deployment) :
    q.Regards id ∧ d.HasRoom q := by
  obtain ⟨regards, uncreated⟩ := h.regards
  refine ⟨regards, ?_⟩
  -- only a creation needs room
  rintro op rfl m rfl
  exact absurd rfl (uncreated m)

theorem Program.Ensures.attends {p : Program α} {post : List Exchange → α → Prop}
    (h : p.Ensures (Tends id) post []) (d : Deployment) : p.Attends id d := by
  generalize [] = past at h
  induction p generalizing past d with
  | done a => trivial
  | ask q next ih =>
    obtain ⟨hq, hnext⟩ := Program.ensures_ask.mp h
    exact ⟨hq.attends d, ih _ _ _ (hnext _)⟩

theorem Action.attends_ask_bind {q : Question} {f : q.Answer → Action β}
    (hq : q.Regards id ∧ d.HasRoom q) (h : (f (d.handle q).1).run.Attends id (d.handle q).2) :
    (ask q >>= f).run.Attends id d :=
  ⟨hq, h⟩

theorem hasRoom_of_lt (h : d.memory.size < d.memory.capacity) (q : Question) : d.HasRoom q := by
  rintro _ rfl m rfl _
  exact (List.length_filter_le ..).trans_lt h

theorem attends_keep {m : Meeting} {ticket : Meeting.Ticket}
    (room : d.memory.size < d.memory.capacity) :
    (Action.store (.create m) >>= fun _ => Action.count .meetingCreated >>= fun _ =>
      pure ticket : Action Meeting.Ticket).run.Attends m.id d := by
  refine ⟨⟨rfl, hasRoom_of_lt room _⟩, ?_⟩
  cases (d.handle (.store (.create m))).1 with
  | error fault => trivial
  | ok _ => exact ⟨⟨trivial, nofun⟩, trivial⟩

theorem newId?_create {draft tidy : Meeting.Draft} {entropy : Entropy}
    {octets : Vector UInt8 Meeting.Identifier.size} {nonce : Token.Nonce}
    (accepted : draft.tidy = .ok tidy)
    (drawn : entropy.draw entropy.draws Meeting.Identifier.size = some octets)
    (drawn' : entropy.draw (entropy.draws + 1) Token.nonceLength = some nonce) :
    (Command.create draft).newId? entropy = some (Meeting.Identifier.ofOctets octets) := by
  change (do
    let _ ← draft.tidy.toOption
    let octets ← entropy.draw entropy.draws Meeting.Identifier.size
    let _ ← entropy.draw (entropy.draws + 1) Token.nonceLength
    return Meeting.Identifier.ofOctets octets) = _
  rw [accepted, drawn, drawn']
  rfl

theorem Service.attends_create (s : Service) {draft : Meeting.Draft}
    (h : ∀ id', (Command.create draft).newId? d.entropy = some id' →
      id' = id ∧ d.memory.size < d.memory.capacity) :
    (s.create draft).run.Attends id d := by
  unfold create
  cases htidy : draft.tidy with
  | error fault => trivial
  | ok tidy =>
    rw [show Action.ofExcept (.ok tidy : Except Fault Meeting.Draft) = pure tidy from rfl,
      pure_bind]
    unfold drawIdentifier
    rw [bind_assoc]
    refine Action.attends_ask_bind ⟨trivial, nofun⟩ ?_
    rw [handle_octets]
    cases hdraw : d.entropy.draw d.entropy.draws Meeting.Identifier.size with
    | none => trivial
    | some octets =>
      dsimp only
      rw [pure_bind]
      refine Action.attends_ask_bind ⟨trivial, nofun⟩ ?_
      unfold issue
      rw [bind_assoc]
      refine Action.attends_ask_bind ⟨trivial, nofun⟩ ?_
      dsimp only [Deployment.handle]
      cases hnonce : d.entropy.draw (d.entropy.draws + 1) Token.nonceLength with
      | none => trivial
      | some nonce =>
        obtain ⟨rfl, room⟩ := h _ (newId?_create htidy hdraw hnonce)
        dsimp only
        rw [pure_bind]
        exact attends_keep room

end

-- unfolding it would run the program
attribute [irreducible] Program.Attends

end Rendezvous
