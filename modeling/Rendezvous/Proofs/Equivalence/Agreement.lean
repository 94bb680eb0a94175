import Rendezvous.Proofs.Equivalence.Command
import Rendezvous.Proofs.Store.Correspondence

namespace Rendezvous

open Store

/-- That a deployment and an archive differ in nothing that can be seen. -/
structure Alike (spent : List String) (d : Deployment) (b : Archive) : Prop where
  clock : d.clock = b.clock
  storeClock : d.storeClock = b.clock
  healthy : ∀ kind, d.faults kind = none
  chat : d.chat = b.chat
  engine : d.engine = b.engine
  entropy : d.entropy = b.entropy
  stores : Corresponds spent b.clock.now d.memory b.ledger

namespace Alike

variable {spent : List String} {d : Deployment} {b : Archive}

theorem start (now : Int64) (capacity : Nat) (chat : Collaborator ChatLink)
    (engine : Collaborator Push) (entropy : Entropy) :
    Alike [] (.start now capacity chat engine entropy) (.start now chat engine entropy) where
  clock := rfl
  storeClock := rfl
  healthy _ := rfl
  chat := rfl
  engine := rfl
  entropy := rfl
  stores := .empty now capacity

theorem mono (h : Alike spent d b) {spent' : List String} (hsub : spent ⊆ spent') :
    Alike spent' d b :=
  { h with stores := h.stores.mono hsub }

theorem restore (h : Alike spent d b) {spent' : List String} {s : Memory} {l : Ledger}
    (hs : Corresponds spent' b.clock.now s l) (tally : Metrics.Tally) :
    Alike spent' { d with memory := s, tally } { b with ledger := l } :=
  { h with stores := hs }

theorem handle (h : Alike spent d b) {q : Question} (hq : ∀ op, q ≠ .store op) :
    (d.handle q).1 = (b.handle q).1 ∧ Alike spent (d.handle q).2 (b.handle q).2 := by
  cases q with
  | store op => exact absurd rfl (hq op)
  | clock => exact ⟨congrArg Clock.now h.clock, h⟩
  | count event => exact ⟨rfl, h.restore h.stores _⟩
  | octets n =>
    refine ⟨?_, { h with entropy := ?_ }⟩
    · change d.entropy.draw d.entropy.draws n = b.entropy.draw b.entropy.draws n
      rw [h.entropy]
    · change { d.entropy with draws := d.entropy.draws + 1 } =
        { b.entropy with draws := b.entropy.draws + 1 }
      rw [h.entropy]
  | closeChat link =>
    refine ⟨?_, { h with chat := ?_ }⟩
    · change (d.chat.call link).1 = (b.chat.call link).1
      rw [h.chat]
    · change (d.chat.call link).2 = (b.chat.call link).2
      rw [h.chat]
  | setVariables domainId callId vars =>
    refine ⟨?_, { h with engine := ?_ }⟩
    · change (d.engine.call ⟨domainId, callId, vars⟩).1 = (b.engine.call ⟨domainId, callId, vars⟩).1
      rw [h.engine]
    · change (d.engine.call ⟨domainId, callId, vars⟩).2 = (b.engine.call ⟨domainId, callId, vars⟩).2
      rw [h.engine]

theorem perform (h : Alike spent d b) (op : Operation) : ∃ tally,
    d.perform op = ((d.memory.perform b.clock.now op).1,
      { d with memory := (d.memory.perform b.clock.now op).2, tally }) := by
  rw [← h.storeClock]
  exact Deployment.perform_of_healthy (h.healthy op.kind)

end Alike

/-- That an action has ended alike in a deployment and in an archive; `post` tells more about the
deployment if it has not failed. -/
inductive Agrees {α : Type} (spent : List String) (post : α → Deployment → Prop) :
    Except Fault α × Deployment → Except Fault α × Archive → Prop where
  | ok {v : α} {d : Deployment} {b : Archive} (alike : Alike spent d b) (holds : post v d) :
    Agrees spent post (.ok v, d) (.ok v, b)
  | error {f g : Fault} {d : Deployment} {b : Archive} (alike : Alike spent d b)
    (told : f.blur = g.blur) : Agrees spent post (.error f, d) (.error g, b)

namespace Action

variable {α β : Type} {spent : List String} {d : Deployment} {b : Archive}

def Agree (spent : List String) (post : α → Deployment → Prop) (a : Action α) (d : Deployment)
    (b : Archive) : Prop :=
  Agrees spent post (a.run.run Deployment.handle d) (a.run.run Archive.handle b)

theorem agree_pure {v : α} {post : α → Deployment → Prop} (h : Alike spent d b) (hv : post v d) :
    Agree spent post (pure v) d b :=
  .ok h hv

theorem agree_throw {fault : Fault} {post : α → Deployment → Prop} (h : Alike spent d b) :
    Agree spent post (throw fault) d b :=
  .error h rfl

theorem agree_ofExcept (r : Except Fault α) (h : Alike spent d b) :
    (ofExcept r).Agree spent (fun v d' => r = .ok v ∧ d' = d) d b := by
  cases r with
  | ok v => exact .ok h ⟨rfl, rfl⟩
  | error fault => exact .error h rfl

theorem agree_count (event : Metrics.Event) (h : Alike spent d b) :
    (count event).Agree spent (fun _ _ => True) d b :=
  .ok (h.restore h.stores _) trivial

theorem Agree.bind_of_subset {a : Action α} {f : α → Action β} {spent' : List String}
    {middle : α → Deployment → Prop} {post : β → Deployment → Prop} (h : a.Agree spent middle d b)
    (hsub : spent ⊆ spent')
    (hf : ∀ v d b, Alike spent d b → middle v d → (f v).Agree spent' post d b) :
    (a >>= f).Agree spent' post d b := by
  unfold Agree at h ⊢
  rw [ExceptT.run_bind, Program.run_bind, Program.run_bind]
  generalize a.run.run Deployment.handle d = x at h
  generalize a.run.run Archive.handle b = y at h
  cases h with
  | ok alike holds => exact hf _ _ _ alike holds
  | error alike told => exact .error (alike.mono hsub) told

theorem Agree.bind {a : Action α} {f : α → Action β} {middle : α → Deployment → Prop}
    {post : β → Deployment → Prop} (h : a.Agree spent middle d b)
    (hf : ∀ v d b, Alike spent d b → middle v d → (f v).Agree spent post d b) :
    (a >>= f).Agree spent post d b :=
  h.bind_of_subset (List.Subset.refl spent) hf

theorem Agree.tryCatch {a : Action α} {f : Fault → Action α} {post : α → Deployment → Prop}
    (h : a.Agree spent post d b)
    (hf : ∀ fault fault' d b, Alike spent d b → fault.blur = fault'.blur →
      Agrees spent post ((f fault).run.run Deployment.handle d)
        ((f fault').run.run Archive.handle b)) :
    (tryCatch a f).Agree spent post d b := by
  unfold Agree at h ⊢
  change Agrees spent post (Program.run Deployment.handle (a.run >>= _) d)
    (Program.run Archive.handle (a.run >>= _) b)
  rw [Program.run_bind, Program.run_bind]
  generalize a.run.run Deployment.handle d = x at h
  generalize a.run.run Archive.handle b = y at h
  cases h with
  | ok alike holds => exact .ok alike holds
  | error alike told => exact hf _ _ _ _ alike told

theorem agree_ask_bind {q : Question} {f : q.Answer → Action β} {spent' : List String}
    {post : β → Deployment → Prop} (h : Alike spent d b) (hq : ∀ op, q ≠ .store op)
    (hf : Alike spent (d.handle q).2 (b.handle q).2 →
      (f (d.handle q).1).Agree spent' post (d.handle q).2 (b.handle q).2) :
    (ask q >>= f).Agree spent' post d b := by
  obtain ⟨hanswer, halike⟩ := h.handle hq
  have hf := hf halike
  change Agrees spent' post ((f (d.handle q).1).run.run Deployment.handle (d.handle q).2)
    ((f (b.handle q).1).run.run Archive.handle (b.handle q).2)
  rwa [← hanswer]

section

variable (op : Operation) {answer : op.Answer} {s : Memory} {l : Ledger} {spent' : List String}

theorem agree_store {post : op.Value → Deployment → Prop} (h : Alike spent d b)
    (hs : d.memory.perform b.clock.now op = (answer, s))
    (hl : b.ledger.perform b.clock.now op = (answer, l))
    (hstores : Corresponds spent' b.clock.now s l)
    (hpost : ∀ v tally, post v { d with memory := s, tally }) :
    (store op).Agree spent' post d b := by
  obtain ⟨tally, hperform⟩ := h.perform op
  rw [hs] at hperform
  change Agrees spent' post (d.perform op) ((b.ledger.perform b.clock.now op).1,
    { b with ledger := (b.ledger.perform b.clock.now op).2 })
  rw [hperform, hl]
  cases answer with
  | ok v => exact .ok (h.restore hstores tally) (hpost v tally)
  | error fault => exact .error (h.restore hstores tally) rfl

theorem agree_ask_store_bind {f : op.Answer → Action β} {post : β → Deployment → Prop}
    (h : Alike spent d b) (hs : d.memory.perform b.clock.now op = (answer, s))
    (hl : b.ledger.perform b.clock.now op = (answer, l))
    (hf : ∀ tally,
      (f answer).Agree spent post { d with memory := s, tally } { b with ledger := l }) :
    (ask (.store op) >>= f).Agree spent post d b := by
  obtain ⟨tally, hperform⟩ := h.perform op
  rw [hs] at hperform
  change Agrees spent post ((f (d.perform op).1).run.run Deployment.handle (d.perform op).2)
    ((f (b.ledger.perform b.clock.now op).1).run.run Archive.handle
      { b with ledger := (b.ledger.perform b.clock.now op).2 })
  rw [hperform, hl]
  exact hf tally

end

theorem agree_lift {p : Program Unit}
    (h : Alike spent (p.run Deployment.handle d).2 (p.run Archive.handle b).2) :
    Agree spent (fun _ _ => True) (ExceptT.lift p) d b := by
  unfold Agree
  rw [ExceptT.run_lift, map_eq_pure_bind, Program.run_bind, Program.run_bind]
  exact .ok h trivial

end Action

end Rendezvous
