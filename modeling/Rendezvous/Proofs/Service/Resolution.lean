import Rendezvous.Proofs.Isolation.Attendance
import Rendezvous.Proofs.Sequence.Queue

namespace Rendezvous

open Store

variable {s : Service} {reference : String}

namespace Service

/-- An identifier is no base 64, so that redeeming it fails for its form under every key. -/
theorem redeem_of_isIdentifier (h : Meeting.Identifier.isIdentifier reference) :
    ∃ fault, s.cipher.redeem reference = .error (.malformed fault) := by
  obtain ⟨fault, hdecode⟩ := Token.decode_eq_error (Meeting.Identifier.not_spells h)
  exact ⟨_, s.cipher.redeem_of_decode_error hdecode⟩

theorem not_isIdentifier_of_redeem {id : String} (h : s.cipher.redeem reference = .ok id) :
    ¬Meeting.Identifier.isIdentifier reference := by
  intro hid
  obtain ⟨fault, hfault⟩ := redeem_of_isIdentifier (s := s) hid
  cases h.symm.trans hfault

theorem referent?_of_isIdentifier (h : Meeting.Identifier.isIdentifier reference) :
    s.referent? reference = some reference := by
  obtain ⟨fault, hfault⟩ := redeem_of_isIdentifier (s := s) h
  simp only [referent?, hfault, if_pos h]

/-- What a reference means is found without a question, so that nothing is counted. -/
theorem run_resolve_of_resolves {id : String} (h : s.Resolves reference id) (d : Deployment) :
    d.run (s.resolve reference).run = (.ok id, d) := by
  rw [s.resolve_of_resolves h]
  rfl

theorem isOk_run_resolve_iff (d : Deployment) :
    (∃ id, (d.run (s.resolve reference).run).1 = .ok id) ↔ ∃ id, s.Resolves reference id := by
  constructor
  · rintro ⟨id, hr⟩
    by_contra unknown
    obtain ⟨reason, hrun⟩ :=
      s.run_resolve_of_not (fun id known => unknown ⟨id, known⟩) d
    rw [hrun] at hr
    cases hr
  · rintro ⟨id, known⟩
    exact ⟨id, by rw [run_resolve_of_resolves known]⟩

theorem exists_resolves_iff : (∃ id, s.Resolves reference id) ↔
    (∃ id, s.cipher.redeem reference = .ok id) ∨ Meeting.Identifier.isIdentifier reference := by
  constructor
  · rintro ⟨id, h | ⟨-, hid, -⟩⟩
    · exact .inl ⟨id, h⟩
    · exact .inr hid
  · rintro (⟨id, h⟩ | hid)
    · exact ⟨id, .inl h⟩
    · exact exists_resolves hid

end Service

namespace Deployment

variable {d : Deployment} {id id' : String}

theorem slot_handle_other {q : Question} (regards : q.Regards id) (room : d.HasRoom q)
    (hne : id' ≠ id) : (d.handle q).2.memory.slot id' = d.memory.slot id' := by
  cases q with
  | store op =>
    cases hfault : d.faults op.kind with
    | some fault =>
      change (d.perform op).2.memory.slot id' = _
      rw [perform_of_fault hfault]
    | none =>
      obtain ⟨tally, hperform⟩ := perform_of_healthy hfault
      change (d.perform op).2.memory.slot id' = _
      rw [hperform]
      have changes := (Memory.perform_slot regards).2 (room op rfl)
      exact (changes id').trans (if_neg hne)
  | _ => rfl

theorem slot_run_other {α : Type} {p : Program α} (attends : p.Attends id d) (hne : id' ≠ id) :
    (d.run p).2.memory.slot id' = d.memory.slot id' := by
  induction p generalizing d with
  | done a => rfl
  | ask q next ih =>
    obtain ⟨⟨regards, room⟩, hnext⟩ := Program.attends_ask.mp attends
    exact (ih _ hnext).trans (slot_handle_other regards room hne)

end Deployment

theorem Service.attends_takeEvent {payload : List UInt8} {hangup : Call.Hangup}
    (read : Call.Hangup.ofPayload payload = .ok hangup)
    (related : hangup.data.meetingId = some reference)
    (hid : Meeting.Identifier.isIdentifier reference) (d : Deployment) :
    (s.takeEvent payload).Attends reference d := by
  have concerns : Concerns ((Happening.event payload).addressee? s d.entropy) reference := by
    intro a ha
    change (do
      let hangup ← (Call.Hangup.ofPayload payload).toOption
      let reference ← hangup.data.meetingId
      s.referent? reference) = some a at ha
    rw [read] at ha
    simp only [Except.toOption, bind, Option.bind_some, related,
      Service.referent?_of_isIdentifier hid, Option.some.injEq] at ha
    exact ha.symm
  exact (tends_takeEvent s concerns).attends d

/-- Under no key can a text be taken for something else than it is. An identifier is a malformed
token, and means itself without anything being counted; an issued token, with any padding, means
what it was issued for and does not look like an identifier; a reference is understood exactly if it
is one or the other, and it is never both. So an event that names a meeting by its identifier leaves
all other meetings and the links to their chats as they are. -/
theorem references_unambiguous (s : Service) (reference : String) :
    (Meeting.Identifier.isIdentifier reference →
      (∃ fault, s.cipher.redeem reference = .error (.malformed fault)) ∧
      ∀ d : Deployment, d.run (s.resolve reference).run = (.ok reference, d)) ∧
    (∀ id nonce k, reference = Token.padded (s.cipher.issue nonce id) k →
      s.cipher.redeem reference = .ok id ∧ ¬Meeting.Identifier.isIdentifier reference ∧
      ∀ d : Deployment, d.run (s.resolve reference).run = (.ok id, d)) ∧
    (∀ d : Deployment, (∃ id, (d.run (s.resolve reference).run).1 = .ok id) ↔
      (∃ id, s.cipher.redeem reference = .ok id) ∨
        Meeting.Identifier.isIdentifier reference) ∧
    ¬((∃ id, s.cipher.redeem reference = .ok id) ∧
      Meeting.Identifier.isIdentifier reference) ∧
    ∀ payload hangup, Call.Hangup.ofPayload payload = .ok hangup →
      hangup.data.meetingId = some reference → Meeting.Identifier.isIdentifier reference →
      ∀ (d : Deployment) (id : String), id ≠ reference →
        (d.run (s.takeEvent payload)).2.memory.slot id = d.memory.slot id := by
  refine ⟨fun hid => ⟨Service.redeem_of_isIdentifier hid, fun d => ?_⟩, ?_, fun d => ?_, ?_, ?_⟩
  · obtain ⟨fault, hfault⟩ := Service.redeem_of_isIdentifier (s := s) hid
    exact Service.run_resolve_of_resolves (.inr ⟨⟨_, hfault⟩, hid, rfl⟩) d
  · rintro id nonce k rfl
    have issued := s.cipher.redeem_padded_issue nonce id k
    exact ⟨issued, Service.not_isIdentifier_of_redeem issued,
      Service.run_resolve_of_resolves (.inl issued)⟩
  · exact (Service.isOk_run_resolve_iff d).trans Service.exists_resolves_iff
  · rintro ⟨⟨id, h⟩, hid⟩
    exact Service.not_isIdentifier_of_redeem h hid
  · intro payload hangup read related hid d id hne
    exact Deployment.slot_run_other (s.attends_takeEvent read related hid d) hne

open System.Sample in
/-- The first identifier that is drawn, and its token. -/
theorem first_identifier_and_token :
    ((∃ fault, service.cipher.redeem id = .error (.malformed fault)) ∧
      (calm 0 []).run (service.resolve id).run = (.ok id, calm 0 [])) ∧
    (¬Meeting.Identifier.isIdentifier (Token.padded (token service) 2) ∧
      (calm 0 []).run (service.resolve (Token.padded (token service) 2)).run =
        (.ok id, calm 0 [])) ∧
    ((calm 0 [meeting service 0]).run (service.takeEvent payload)).2.memory.slot "other" =
      (calm 0 [meeting service 0]).memory.slot "other" := by
  have hid : Meeting.Identifier.isIdentifier id := by decide +kernel
  obtain ⟨hmalformed, -, -, -, hother⟩ := references_unambiguous service id
  obtain ⟨-, hissued, -⟩ := references_unambiguous service (Token.padded (token service) 2)
  obtain ⟨-, hshape, hrun⟩ := hissued id (Vector.replicate _ 0) 2 rfl
  exact ⟨⟨(hmalformed hid).1, (hmalformed hid).2 _⟩, ⟨hshape, hrun _⟩,
    hother payload _ ofPayload_payload rfl hid _ "other" (by decide)⟩

end Rendezvous
