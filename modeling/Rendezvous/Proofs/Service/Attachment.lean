import Rendezvous.Proofs.Http.Absence
import Rendezvous.Proofs.Interleaving.Endurance
import Rendezvous.Proofs.Sequence.Redelivery
import Rendezvous.Proofs.Service.Heedless

namespace Rendezvous

open Store Service

structure CallNoted (d d' : Deployment) (m : Meeting) (callId : String) (bridged : Bool) :
    Prop where
  meetings : ∀ id, d'.memory.find? id =
    if id = m.id then some { m with callId := some callId, bridged } else d.memory.find? id
  chats : d'.memory.chats = d.memory.chats
  chat : d'.chat = match d.memory.chatLink? m.id with
    | some link => (d.chat.call link).2
    | none => d.chat
  /-- the meeting is there to be seen at any time from then on, until something takes it -/
  lasts : ∀ xs d'', d'.Leads xs d'' →
    (∃ n, d''.memory.find? m.id = some n ∧ ∀ now, n.isVisibleAt now) ∨
      ∃ x ∈ xs, ∃ n ∈ x.before.memory.meetings, n.id = m.id ∧ x.before.Takes n x.question

namespace Service

variable {s : Service} {d d' : Deployment} {reference callId id : String} {bridged : Bool}
  {r : Except Fault CallLink}

theorem not_resolves_iff : (∀ id, ¬s.Resolves reference id) ↔
    (∀ id, s.cipher.redeem reference ≠ .ok id) ∧ ¬Meeting.Identifier.isIdentifier reference := by
  constructor
  · intro h
    refine ⟨fun id hr => h id (.inl hr), fun hid => ?_⟩
    obtain ⟨id, hresolves⟩ := exists_resolves (s := s) hid
    exact h id hresolves
  · rintro ⟨unredeemed, hid⟩ id (hr | ⟨-, hid', -⟩)
    · exact unredeemed id hr
    · exact hid hid'

theorem Attached.eq_invalidToken_iff (h : s.Attached d reference callId bridged (r, d')) :
    r = .error .invalidToken ↔ ∀ id, ¬s.Resolves reference id := by
  cases h with
  | rejected tally unknown => exact iff_of_true rfl unknown
  | missed known read =>
    refine iff_of_false ?_ fun unknown => unknown _ known
    rcases read.fault with rfl | rfl
    · simp
    · simp
  | alreadyLinked tally known => exact iff_of_false nofun fun unknown => unknown _ known
  | linked tally known => exact iff_of_false nofun fun unknown => unknown _ known

theorem Attached.eq_absent_iff (h : s.Attached d reference callId bridged (r, d')) :
    r = .error .notFound ∨ r = .error .expired ↔ ∃ id, s.Resolves reference id ∧ Hides d id := by
  have seen {id' : String} {m : Meeting} (known : s.Resolves reference id')
      (shown : Shows d id' m) :
      ¬∃ id, s.Resolves reference id ∧ Hides d id := by
    rintro ⟨id, known', hidden⟩
    cases known.unique known'
    exact hides_iff.mp hidden m shown
  cases h with
  | rejected tally unknown => exact iff_of_false (by simp) fun ⟨id, known, _⟩ => unknown id known
  | missed known read =>
    refine iff_of_true ?_ ⟨_, known, read.hides⟩
    simpa using read.fault
  | alreadyLinked tally known shown => exact iff_of_false (by simp) (seen known shown)
  | linked tally known shown => exact iff_of_false (by simp) (seen known shown)

theorem Attached.eq_alreadyLinked_iff (h : s.Attached d reference callId bridged (r, d')) :
    r = .ok (.alreadyLinked id) ↔
      s.Resolves reference id ∧ ∃ m, Shows d id m ∧ m.callId.isSome := by
  cases h with
  | rejected tally unknown => exact iff_of_false nofun fun ⟨known, _⟩ => unknown id known
  | missed known read =>
    refine iff_of_false nofun ?_
    rintro ⟨known', m, shown, -⟩
    cases known.unique known'
    exact shown.not_missed read
  | alreadyLinked tally known shown called =>
    constructor
    · rintro ⟨⟩
      exact ⟨known, _, shown, called⟩
    · rintro ⟨known', -⟩
      rw [known.unique known']
  | linked tally known shown uncalled =>
    refine iff_of_false nofun ?_
    rintro ⟨known', n, shown', called⟩
    cases known.unique known'
    cases shown.unique shown'
    simp [uncalled] at called

theorem Attached.eq_linked_iff (h : s.Attached d reference callId bridged (r, d')) :
    r = .ok (.linked id) ↔ s.Resolves reference id ∧ ∃ m, Shows d id m ∧ m.callId = none := by
  cases h with
  | rejected tally unknown => exact iff_of_false nofun fun ⟨known, _⟩ => unknown id known
  | missed known read =>
    refine iff_of_false nofun ?_
    rintro ⟨known', m, shown, -⟩
    cases known.unique known'
    exact shown.not_missed read
  | alreadyLinked tally known shown called =>
    refine iff_of_false nofun ?_
    rintro ⟨known', n, shown', uncalled⟩
    cases known.unique known'
    cases shown.unique shown'
    simp [uncalled] at called
  | linked tally known shown uncalled =>
    constructor
    · rintro ⟨⟩
      exact ⟨known, _, shown, uncalled⟩
    · rintro ⟨known', -⟩
      rw [known.unique known']

theorem Attached.unchanged
    (h : s.Attached d reference callId bridged (.ok (.alreadyLinked id), d')) :
    (∀ id, d'.memory.find? id = d.memory.find? id) ∧ d'.memory.chats = d.memory.chats ∧
      d'.chat = d.chat := by
  cases h with
  | alreadyLinked tally known shown called =>
    refine ⟨fun id' => ?_, rfl, rfl⟩
    change (d.memory.promote _).find? id' = _
    rw [Memory.find?_promote]
    split
    · next hid =>
      rw [hid, (Memory.find?_mem shown.held).2, shown.held]
    · rfl

theorem Attached.noted (proper : d'.memory.Proper)
    (h : s.Attached d reference callId bridged (.ok (.linked id), d')) :
    ∃ m, Shows d id m ∧ CallNoted d d' m callId bridged := by
  cases h with
  | @linked _ m tally known shown uncalled =>
    obtain ⟨_, rfl⟩ := Memory.find?_mem shown.held
    refine ⟨m, shown, fun id' => Memory.find?_promote _ id', rfl, ?_, fun xs d'' later => ?_⟩
    · cases d.memory.chatLink? m.id <;> rfl
    · have held : { m with callId := some callId, bridged } ∈
          (d.memory.promote { m with callId := some callId, bridged }).meetings :=
        List.mem_cons_self
      -- identifiers are unique, so that the meeting that is held is the one that is found
      refine (later.held_or_taken proper held rfl).imp_left ?_
      rintro ⟨n, hn, hid, called⟩
      have hfind := (later.proper proper).keyed.find?_eq_some hn
      exact ⟨n, by rwa [hid] at hfind, isVisibleAt_of_called called⟩

end Service

/-- To note a call fails with the one error for tokens exactly if the reference is neither redeemed
nor an identifier, and tells of absence exactly if callers do not see the meeting that it means. Of
a meeting that they see with a call it only tells that; then nothing is different. In any other
meeting that they see the call is noted: nothing else changes in what is stored, the chat service is
told to close the chat of the meeting if there is one, and from then on the meeting is seen at any
time until it is deleted, swept away or evicted. With another chat service, whatever it answers, all
is the same but for that itself. -/
theorem attachment_explained (s : Service) {d : Deployment} (h : d.Attainable)
    (room : 0 < d.memory.capacity) (healthy : d.Healthy) (reference callId : String)
    (bridged : Bool) :
    let r := (d.run (s.attachCall reference callId bridged).run).1
    let d' := (d.run (s.attachCall reference callId bridged).run).2
    (r = .error .invalidToken ↔ (∀ id, s.cipher.redeem reference ≠ .ok id) ∧
      ¬Meeting.Identifier.isIdentifier reference) ∧
    (r = .error .notFound ∨ r = .error .expired ↔ ∃ id, s.Resolves reference id ∧ Hides d id) ∧
    (∀ id, r = .ok (.alreadyLinked id) ↔
      s.Resolves reference id ∧ ∃ m, Shows d id m ∧ m.callId.isSome) ∧
    (∀ id, r = .ok (.linked id) ↔
      s.Resolves reference id ∧ ∃ m, Shows d id m ∧ m.callId = none) ∧
    (∀ id, r = .ok (.alreadyLinked id) →
      (∀ id, d'.memory.find? id = d.memory.find? id) ∧ d'.memory.chats = d.memory.chats ∧
        d'.chat = d.chat) ∧
    (∀ id, r = .ok (.linked id) → ∃ m, Shows d id m ∧ CallNoted d d' m callId bridged) ∧
    ∀ chat, ∃ chat', { d with chat }.run (s.attachCall reference callId bridged).run =
      (r, { d' with chat := chat' }) := by
  have hattached := s.attached healthy reference callId bridged
  have proper : (d.run (s.attachCall reference callId bridged).run).2.memory.Proper :=
    Deployment.run_induction (P := fun d => d.memory.Proper)
      (fun _ q h => Deployment.proper_handle h q) (h.proper room) _
  have heedless := Deployment.run_chat (s.heedless_attachCall reference callId bridged) d
  generalize d.run (s.attachCall reference callId bridged).run = x at hattached proper heedless ⊢
  obtain ⟨r, d'⟩ := x
  dsimp only
  refine ⟨hattached.eq_invalidToken_iff.trans not_resolves_iff, hattached.eq_absent_iff,
    fun id => hattached.eq_alreadyLinked_iff, fun id => hattached.eq_linked_iff, ?_, ?_, ?_⟩
  · intro id hr
    rw [hr] at hattached
    exact hattached.unchanged
  · intro id hr
    rw [hr] at hattached
    exact hattached.noted proper
  · exact heedless

open System.Sample in
/-- The call of the first meeting is noted, and the chat service is told, though it fails. -/
theorem noted_though_chat_fails : ∃ d : Deployment, d.Attainable ∧ 0 < d.memory.capacity ∧
    d.Healthy ∧ d.chat = .failing (.unavailable "chat service") ∧
    (d.run (service.attachCall id "c" true).run).1 = .ok (.linked id) ∧
    (d.run (service.attachCall id "c" true).run).2.memory.find? id = some (called service) ∧
    (d.run (service.attachCall id "c" true).run).2.chat.calls.length = 1 := by
  let link : ChatLink := ⟨"conversation", "channel", 1⟩
  let d : Deployment := { calm 0 [meeting service 0] with
    memory := ⟨1, [meeting service 0], .single id link⟩
    chat := .failing (.unavailable "chat service") }
  have h : d.Attainable := (exists_attainable service).drift d rfl rfl
  have room : 0 < d.memory.capacity := Nat.zero_lt_one
  have healthy : d.Healthy := fun _ => rfl
  obtain ⟨-, -, -, hlinked, -, hnoted, -⟩ := attachment_explained service h room healthy id "c" true
  have known : service.Resolves id id :=
    resolves_of_means (by decide +kernel) (.inr rfl)
  have shown : Shows d id (meeting service 0) := ⟨rfl, by decide, by decide⟩
  have hr := (hlinked id).mpr ⟨known, _, shown, rfl⟩
  obtain ⟨m, shown', noted⟩ := hnoted id hr
  obtain rfl := shown.unique shown'
  refine ⟨d, h, room, healthy, rfl, hr, noted.meetings id, ?_⟩
  rw [noted.chat]
  rfl

end Rendezvous
