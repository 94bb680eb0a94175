import Rendezvous.Deployment
import Rendezvous.Proofs.Interleaving.Exchange
import Rendezvous.Proofs.Store.Memory

namespace Rendezvous

namespace Exchange

def created (m : Meeting) : Exchange := ⟨.store (.create m), .ok ()⟩

/-- What an exchange makes of a stored meeting. -/
def effect : Exchange → Meeting → Meeting
  | ⟨.store (.setCall id callId bridged), .ok _⟩, m =>
    if m.id = id then { m with callId := some callId, bridged } else m
  | ⟨.store (.setSatisfaction id value), .ok _⟩, m =>
    if m.id = id then { m with satisfaction := some value } else m
  | _, m => m

def NotesCall (e : Exchange) : Prop :=
  ∃ id callId bridged, e.question = .store (.setCall id callId bridged)

theorem id_effect (e : Exchange) (m : Meeting) : (e.effect m).id = m.id := by
  fun_cases effect <;> simp_all

theorem callId_effect {e : Exchange} (h : ¬e.NotesCall) (m : Meeting) :
    (e.effect m).callId = m.callId := by
  unfold effect
  split
  · next id callId bridged _ => exact absurd ⟨id, callId, bridged, rfl⟩ h
  · split <;> rfl
  · rfl

end Exchange

open Exchange Store

namespace Store.Memory

variable {s : Memory} {now : Int64}

theorem mem_perform {op : Operation} {m : Meeting} (h : m ∈ (s.perform now op).2.meetings) :
    (∃ n ∈ s.meetings, m = effect ⟨.store op, (s.perform now op).1⟩ n) ∨
      (⟨.store op, (s.perform now op).1⟩ : Exchange) = created m := by
  cases op with
  | create n =>
    rcases mem_create h with hm | ⟨rfl, hok⟩
    · exact .inl ⟨m, hm, rfl⟩
    · have hok : (s.perform now (.create m)).1 = .ok () := hok
      rw [hok]
      exact .inr rfl
  | get id => exact .inl ⟨m, mem_get h, rfl⟩
  | delete id => exact .inl ⟨m, mem_delete h, rfl⟩
  | setCall id callId bridged =>
    change m ∈ (s.setCall id callId bridged).2.meetings at h
    obtain ⟨n, hn, ⟨hne, rfl⟩ | ⟨hid, rfl, hok⟩⟩ := mem_modify (by simp) h
    · refine .inl ⟨m, hn, ?_⟩
      unfold effect
      split <;> simp_all
    · have hok : (s.perform now (.setCall id callId bridged)).1 = .ok () := hok
      exact .inl ⟨n, hn, by rw [hok]; simp [effect, hid]⟩
  | setSatisfaction id value =>
    change m ∈ (s.setSatisfaction id value).2.meetings at h
    obtain ⟨n, hn, ⟨hne, rfl⟩ | ⟨hid, rfl, hok⟩⟩ := mem_modify (by simp) h
    · refine .inl ⟨m, hn, ?_⟩
      unfold effect
      split <;> simp_all
    · have hok : (s.perform now (.setSatisfaction id value)).1 = .ok () := hok
      exact .inl ⟨n, hn, by rw [hok]; simp [effect, hid]⟩
  | deleteExpired cutoff => exact .inl ⟨m, (List.mem_filter.mp h).1, rfl⟩
  | chatLink id => exact .inl ⟨m, h, rfl⟩
  | ping => exact .inl ⟨m, h, rfl⟩

end Store.Memory

namespace Deployment

variable {d : Deployment}

theorem memory_perform (d : Deployment) (op : Operation) :
    (d.perform op).2.memory = d.memory ∧ (∃ fault, (d.perform op).1 = .error fault) ∨
      (d.perform op).1 = (d.memory.perform d.storeClock.now op).1 ∧
        (d.perform op).2.memory = (d.memory.perform d.storeClock.now op).2 := by
  cases h : d.faults op.kind with
  | some fault =>
    rw [perform_of_fault h]
    exact .inl ⟨rfl, fault, rfl⟩
  | none =>
    obtain ⟨tally, hperform⟩ := perform_of_healthy h
    rw [hperform]
    exact .inr ⟨rfl, rfl⟩

/-- A meeting that is stored after an exchange is what the exchange made of one that was stored
before, or has been created by it. -/
theorem mem_handle {q : Question} {m : Meeting} (h : m ∈ (d.handle q).2.memory.meetings) :
    (∃ n ∈ d.memory.meetings, m = effect ⟨q, (d.handle q).1⟩ n) ∨
      (⟨q, (d.handle q).1⟩ : Exchange) = created m := by
  cases q with
  | store op =>
    change m ∈ (d.perform op).2.memory.meetings at h
    change (∃ n ∈ _, m = effect ⟨.store op, (d.perform op).1⟩ n) ∨
      (⟨.store op, (d.perform op).1⟩ : Exchange) = _
    rcases memory_perform d op with ⟨hsame, fault, hfault⟩ | ⟨hanswer, hmemory⟩
    · rw [hsame] at h
      rw [hfault]
      exact .inl ⟨m, h, by cases op <;> rfl⟩
    · rw [hmemory] at h
      rw [hanswer]
      exact Memory.mem_perform h
  | _ => exact .inl ⟨m, h, rfl⟩

theorem keyed_handle (h : d.memory.Keyed) (q : Question) : (d.handle q).2.memory.Keyed := by
  cases q with
  | store op =>
    change (d.perform op).2.memory.Keyed
    rcases memory_perform d op with ⟨hsame, _⟩ | ⟨_, hmemory⟩
    · rwa [hsame]
    · rw [hmemory]
      exact h.perform op
  | _ => exact h

theorem of_handle_get {id : String} {m : Meeting} (h : (d.handle (.store (.get id))).1 = .ok m) :
    m.id = id ∧ m ∈ d.memory.meetings := by
  change (d.perform (.get id)).1 = .ok m at h
  rcases memory_perform d (.get id) with ⟨_, fault, hfault⟩ | ⟨hanswer, _⟩
  · rw [hfault] at h
    cases h
  · rw [hanswer] at h
    change (d.memory.get d.storeClock.now id).1 = .ok m at h
    cases hfind : d.memory.find? id with
    | none =>
      rw [Memory.get_of_find?_eq_none hfind] at h
      cases h
    | some n =>
      obtain ⟨hn, hid⟩ := Memory.find?_mem hfind
      by_cases hv : n.isVisibleAt d.storeClock.now
      · rw [Memory.get_of_visible hfind hv] at h
        cases h
        exact ⟨hid, hn⟩
      · rw [Memory.get_of_not_visible hfind hv] at h
        cases h

theorem of_handle_setSatisfaction {id value : String}
    (h : (d.handle (.store (.setSatisfaction id value))).1 = .ok ()) :
    ∃ n : Meeting, n ∈ d.memory.meetings ∧ n.id = id ∧ { n with satisfaction := some value } ∈
      (d.handle (.store (.setSatisfaction id value))).2.memory.meetings := by
  change (d.perform (.setSatisfaction id value)).1 = .ok () at h
  change ∃ n : Meeting, n ∈ d.memory.meetings ∧ n.id = id ∧ { n with satisfaction := some value } ∈
    (d.perform (.setSatisfaction id value)).2.memory.meetings
  rcases memory_perform d (.setSatisfaction id value) with ⟨_, fault, hfault⟩ | ⟨hanswer, hmemory⟩
  · rw [hfault] at h
    cases h
  · rw [hanswer] at h
    rw [hmemory]
    change (d.memory.setSatisfaction id value).1 = .ok () at h
    change ∃ n : Meeting, n ∈ d.memory.meetings ∧ n.id = id ∧
      { n with satisfaction := some value } ∈ (d.memory.setSatisfaction id value).2.meetings
    unfold Memory.setSatisfaction at h ⊢
    cases hfind : d.memory.find? id with
    | none =>
      rw [Memory.modify_of_find?_eq_none hfind] at h
      cases h
    | some n =>
      obtain ⟨hn, hid⟩ := Memory.find?_mem hfind
      rw [Memory.modify_of_find? hfind]
      exact ⟨n, hn, hid, List.mem_cons_self⟩

theorem handle_setSatisfaction (hd : d.faults .setSatisfaction = none) (hk : d.memory.Keyed)
    {n : Meeting} (hn : n ∈ d.memory.meetings) (value : String) :
    (d.handle (.store (.setSatisfaction n.id value))).1 = .ok () := by
  have hfind := hk.find?_eq_some hn
  have hd : d.faults (Operation.kind (.setSatisfaction n.id value)) = none := hd
  obtain ⟨tally, hperform⟩ := perform_of_healthy hd
  change (d.perform (.setSatisfaction n.id value)).1 = .ok ()
  rw [hperform]
  exact congrArg Prod.fst (Memory.modify_of_find? hfind _)

theorem handle_get (hd : d.faults .get = none) (hk : d.memory.Keyed) {n : Meeting}
    (hn : n ∈ d.memory.meetings) (hv : n.isVisibleAt d.storeClock.now) :
    (d.handle (.store (.get n.id))).1 = .ok n ∧
      n ∈ (d.handle (.store (.get n.id))).2.memory.meetings := by
  have hfind := hk.find?_eq_some hn
  have hd : d.faults (Operation.kind (.get n.id)) = none := hd
  obtain ⟨tally, hperform⟩ := perform_of_healthy hd
  change (d.perform (.get n.id)).1 = .ok n ∧ n ∈ (d.perform (.get n.id)).2.memory.meetings
  rw [hperform]
  change (d.memory.get _ n.id).1 = .ok n ∧ n ∈ (d.memory.get _ n.id).2.meetings
  rw [Memory.get_of_visible hfind hv]
  exact ⟨rfl, List.mem_cons_self⟩

end Deployment

end Rendezvous
