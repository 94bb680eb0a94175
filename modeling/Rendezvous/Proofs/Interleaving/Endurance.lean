import Rendezvous.Proofs.Interleaving.Attainable
import Rendezvous.Proofs.Store.History

namespace Rendezvous

open Store

/-- What is true of all stores that were empty once and have room for a meeting. -/
structure Store.Memory.Proper (s : Memory) : Prop where
  room : 0 < s.capacity
  bound : s.size ≤ s.capacity
  keyed : s.Keyed

theorem Store.Memory.Proper.perform {s : Memory} (h : s.Proper) (now : Int64) (op : Operation) :
    (s.perform now op).2.Proper := by
  have hcapacity := Memory.capacity_perform s now op
  have hchange := Turn.change h.room h.bound (.perform now op)
  exact ⟨hcapacity ▸ h.room, hcapacity ▸ hchange.length_le h.room h.bound, h.keyed.perform op⟩

theorem Store.Memory.Proper.congr {s t : Memory} (h : s.Proper) (meetings : t.meetings = s.meetings)
    (capacity : t.capacity = s.capacity) : t.Proper where
  room := capacity ▸ h.room
  bound := by
    rw [capacity, Memory.size, meetings]
    exact h.bound
  keyed := by
    rw [Memory.Keyed, meetings]
    exact h.keyed

namespace Deployment

variable {d : Deployment}

theorem capacity_handle (d : Deployment) (q : Question) :
    (d.handle q).2.memory.capacity = d.memory.capacity := by
  cases q with
  | store op =>
    change (d.perform op).2.memory.capacity = _
    rcases memory_perform d op with ⟨hsame, _⟩ | ⟨_, hmemory⟩
    · rw [hsame]
    · rw [hmemory, Memory.capacity_perform]
  | _ => rfl

theorem proper_handle (h : d.memory.Proper) (q : Question) : (d.handle q).2.memory.Proper := by
  cases q with
  | store op =>
    change (d.perform op).2.memory.Proper
    rcases memory_perform d op with ⟨hsame, _⟩ | ⟨_, hmemory⟩
    · rwa [hsame]
    · rw [hmemory]
      exact h.perform d.storeClock.now op
  | _ => exact h

theorem Attainable.proper (h : d.Attainable) (room : 0 < d.memory.capacity) : d.memory.Proper := by
  induction h with
  | start => exact ⟨room, Nat.zero_le _, List.nodup_nil⟩
  | answer _ q _ ih =>
    rw [capacity_handle] at room
    exact proper_handle (ih room) q
  | drift _ d' kept bounded ih => exact (ih (bounded ▸ room)).congr kept bounded

structure Inquiry where
  question : Question
  before : Deployment

/-- What a deployment has come to after some questions, of which the last comes first, whoever asked
them. Anything but the meetings may change in between. -/
inductive Leads (d₀ : Deployment) : List Inquiry → Deployment → Prop where
  | start : Leads d₀ [] d₀
  | answer {xs : List Inquiry} {d : Deployment} (h : Leads d₀ xs d) (q : Question) :
      Leads d₀ (⟨q, d⟩ :: xs) (d.handle q).2
  | drift {xs : List Inquiry} {d : Deployment} (h : Leads d₀ xs d) (d' : Deployment)
      (kept : d'.memory.meetings = d.memory.meetings)
      (bounded : d'.memory.capacity = d.memory.capacity) : Leads d₀ xs d'

theorem Leads.proper {d₀ : Deployment} {xs : List Inquiry} (h : d₀.Leads xs d)
    (h₀ : d₀.memory.Proper) : d.memory.Proper := by
  induction h with
  | start => exact h₀
  | answer _ q ih => exact proper_handle ih q
  | drift _ d' kept bounded ih => exact ih.congr kept bounded

/-- The questions that take a meeting with a call out of the store. -/
inductive Takes (d : Deployment) (m : Meeting) : Question → Prop where
  | deleted : Takes d m (.store (.delete m.id))
  | swept {cutoff : Int64} (expired : m.expiresAt ≤ cutoff) :
      Takes d m (.store (.deleteExpired cutoff))
  /-- The meeting is the last of a full store, and another is new to it. -/
  | evicted {n : Meeting} (new : d.memory.find? n.id = none)
      (full : d.memory.size = d.memory.capacity) (last : d.memory.meetings.getLast? = some m) :
      Takes d m (.store (.create n))

theorem handle_kept (h : d.memory.Proper) {m : Meeting} (held : m ∈ d.memory.meetings)
    (called : m.callId.isSome) {q : Question} (untaken : ¬Takes d m q) :
    (⟨q, (d.handle q).1⟩ : Exchange).effect m ∈ (d.handle q).2.memory.meetings := by
  cases q with
  | store op =>
    change (⟨.store op, (d.perform op).1⟩ : Exchange).effect m ∈ (d.perform op).2.memory.meetings
    rcases memory_perform d op with ⟨hsame, fault, hfault⟩ | ⟨hanswer, hmemory⟩
    · rw [hsame, hfault]
      cases op <;> exact held
    · rw [hanswer, hmemory]
      have hchange := Turn.change h.room h.bound (.perform d.storeClock.now op)
      refine hchange.kept h.keyed held ?_ ?_
      · intro hdrops
        cases hdrops with
        | deleted => exact untaken .deleted
        | swept _ expired => exact untaken (.swept expired)
      · -- nothing that strands a meeting with a call is left but the lack of room
        intro hstrands
        cases hstrands with
        | lapsed _ uncalled => simp [uncalled] at called
        | replaced _ _ uncalled => simp [uncalled] at called
        | evicted _ new full last => exact untaken (.evicted new full last)
  | _ => exact held

end Deployment

theorem Exchange.isSome_callId_effect (e : Exchange) {m : Meeting} (h : m.callId.isSome) :
    (e.effect m).callId.isSome := by
  unfold effect
  split
  · split
    · rfl
    · exact h
  · split <;> exact h
  · exact h

theorem Exchange.isSome_satisfaction_effect (e : Exchange) {m : Meeting}
    (h : m.satisfaction.isSome) : (e.effect m).satisfaction.isSome := by
  unfold effect
  split
  · split <;> exact h
  · split
    · rfl
    · exact h
  · exact h

/-- A meeting with a call is held until it is taken. -/
theorem Deployment.Leads.held_or_taken {d d' : Deployment} {xs : List Inquiry}
    (h : d.Leads xs d') (proper : d.memory.Proper) {m : Meeting} (held : m ∈ d.memory.meetings)
    (called : m.callId.isSome) :
    (∃ n ∈ d'.memory.meetings, n.id = m.id ∧ n.callId.isSome) ∨
      ∃ x ∈ xs, ∃ n ∈ x.before.memory.meetings, n.id = m.id ∧ Takes x.before n x.question := by
  induction h with
  | start => exact .inl ⟨m, held, rfl, called⟩
  | drift _ d' kept _ ih =>
    rw [kept]
    exact ih
  | @answer xs d₁ h q ih =>
    rcases ih with ⟨n, hn, hid, hcalled⟩ | ⟨x, hx, htaken⟩
    · by_cases htakes : Takes d₁ n q
      · exact .inr ⟨_, List.mem_cons_self, n, hn, hid, htakes⟩
      · refine .inl ⟨_, handle_kept (h.proper proper) hn hcalled htakes, ?_, ?_⟩
        · rw [Exchange.id_effect, hid]
        · exact Exchange.isSome_callId_effect _ hcalled
    · exact .inr ⟨x, List.mem_cons_of_mem _ hx, htaken⟩

end Rendezvous
