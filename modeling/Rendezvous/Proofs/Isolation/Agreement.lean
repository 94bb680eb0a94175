import Rendezvous.Proofs.Isolation.Attendance

namespace Rendezvous

open Store

theorem Store.Memory.Changes.find? {memory memory' : Memory} {id : String} {t : Slot}
    (h : memory.Changes memory' id t) : memory'.find? id = t.meeting? :=
  congrArg Slot.meeting? ((h id).trans (if_pos rfl))

namespace Deployment

/-- That two deployments whose stores work differ in nothing but what is counted, the order of their
meetings, and the meetings whose identifiers do not satisfy `P`. -/
structure AgreeOn (P : String → Prop) (d d' : Deployment) : Prop where
  clock : d'.clock = d.clock
  storeClock : d'.storeClock = d.storeClock
  healthy : d.Healthy
  healthy' : d'.Healthy
  chat : d'.chat = d.chat
  engine : d'.engine = d.engine
  entropy : d'.entropy = d.entropy
  slots : ∀ id, P id → d'.memory.slot id = d.memory.slot id

variable {P : String → Prop} {d d' : Deployment} {id : String}

theorem AgreeOn.refl (healthy : d.Healthy) : AgreeOn P d d :=
  ⟨rfl, rfl, healthy, healthy, rfl, rfl, rfl, fun _ _ => rfl⟩

/-- The stores are changed in one meeting each, to the same if that is one of those that count. -/
theorem AgreeOn.change (h : AgreeOn P d d') {memory memory' : Memory} {t t' : Slot}
    (changes : d.memory.Changes memory id t) (changes' : d'.memory.Changes memory' id t')
    (same : P id → t' = t) (tally tally' : Metrics.Tally) :
    AgreeOn P { d with memory, tally } { d' with memory := memory', tally := tally' } :=
  { h with
    slots := fun id' hid' => by
      change memory'.slot id' = memory.slot id'
      rw [changes, changes']
      by_cases heq : id' = id
      · subst heq
        rw [if_pos rfl, if_pos rfl, same hid']
      · rw [if_neg heq, if_neg heq, h.slots id' hid'] }

theorem AgreeOn.handle (h : AgreeOn P d d') {past : List Exchange} {q : Question}
    (hq : Tends id past q) (hid : P id) :
    (d'.handle q).1 = (d.handle q).1 ∧ AgreeOn P (d.handle q).2 (d'.handle q).2 := by
  cases q with
  | clock => exact ⟨congrArg Clock.now h.clock, h⟩
  | count event => exact ⟨rfl, { h with }⟩
  | octets n =>
    refine ⟨?_, { h with entropy := ?_ }⟩
    · change d'.entropy.draw d'.entropy.draws n = d.entropy.draw d.entropy.draws n
      rw [h.entropy]
    · change { d'.entropy with draws := d'.entropy.draws + 1 } =
        { d.entropy with draws := d.entropy.draws + 1 }
      rw [h.entropy]
  | closeChat link =>
    obtain ⟨answer, chat⟩ : (d'.chat.call link).1 = (d.chat.call link).1 ∧
        (d'.chat.call link).2 = (d.chat.call link).2 := by
      rw [h.chat]
      exact ⟨rfl, rfl⟩
    exact ⟨answer, { h with chat }⟩
  | setVariables domainId callId vars =>
    obtain ⟨answer, engine⟩ :
        (d'.engine.call ⟨domainId, callId, vars⟩).1 = (d.engine.call ⟨domainId, callId, vars⟩).1 ∧
        (d'.engine.call ⟨domainId, callId, vars⟩).2 =
          (d.engine.call ⟨domainId, callId, vars⟩).2 := by
      rw [h.engine]
      exact ⟨rfl, rfl⟩
    exact ⟨answer, { h with engine }⟩
  | store op =>
    obtain ⟨regards, room⟩ := hq.attends d
    obtain ⟨-, room'⟩ := hq.attends d'
    obtain ⟨tally, hperform⟩ := h.healthy.perform op
    obtain ⟨tally', hperform'⟩ := h.healthy'.perform op
    have changes := (Memory.perform_slot regards).2 (room op rfl)
    have changes' := (Memory.perform_slot regards).2 (room' op rfl)
    have hslot : (d'.memory.slot id).perform d'.storeClock.now op =
        (d.memory.slot id).perform d.storeClock.now op := by
      rw [h.slots id hid, h.storeClock]
    rw [hperform, hperform']
    refine ⟨?_, h.change changes changes' (fun _ => congrArg Prod.snd hslot) _ _⟩
    change (d'.memory.perform _ op).1 = (d.memory.perform _ op).1
    rw [(Memory.perform_slot regards).1, (Memory.perform_slot regards).1, hslot]

/-- A program about one of the meetings ends with the same in both deployments. -/
theorem AgreeOn.run {α : Type} (h : AgreeOn P d d') {p : Program α} {past : List Exchange}
    {post : List Exchange → α → Prop} (hp : p.Ensures (Tends id) post past) (hid : P id) :
    (d'.run p).1 = (d.run p).1 ∧ AgreeOn P (d.run p).2 (d'.run p).2 := by
  induction p generalizing d d' past with
  | done a => exact ⟨rfl, h⟩
  | ask q next ih =>
    obtain ⟨hq, hnext⟩ := Program.ensures_ask.mp hp
    obtain ⟨answer, agree⟩ := h.handle hq hid
    have hrun : d'.run (.ask q next) = (d'.handle q).2.run (next (d'.handle q).1) := rfl
    rw [hrun, answer]
    exact ih _ agree (hnext _)

end Deployment

end Rendezvous
