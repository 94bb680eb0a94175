import Rendezvous.Proofs.Service.Results

namespace Rendezvous

namespace Program

variable {α β : Type}

/-- That nothing depends on what the chat service answers. -/
inductive Heedless : Program α → Prop where
  | done (a : α) : Heedless (done a)
  | ask {q : Question} {next : q.Answer → Program α} (other : ∀ link, q ≠ .closeChat link)
      (h : ∀ answer, (next answer).Heedless) : Heedless (ask q next)
  | closeChat (link : ChatLink) {p : Program α} (h : p.Heedless) :
      Heedless (ask (.closeChat link) fun _ => p)

theorem Heedless.bind {p : Program α} {f : α → Program β} (h : p.Heedless)
    (hf : ∀ a, (f a).Heedless) : (p >>= f).Heedless := by
  induction h with
  | done a => exact hf a
  | ask other _ ih => exact .ask other ih
  | closeChat link _ ih => exact .closeChat link ih

theorem heedless_answer {q : Question} (other : ∀ link, q ≠ .closeChat link) :
    (answer q).Heedless :=
  .ask other .done

end Program

namespace Action

variable {α β : Type} {a : Action α} {f : α → Action β}

theorem heedless_bind (h : a.run.Heedless) (hf : ∀ v, (f v).run.Heedless) :
    (a >>= f).run.Heedless := by
  rw [ExceptT.run_bind]
  refine h.bind fun r => ?_
  cases r with
  | ok v => exact hf v
  | error fault => exact .done _

theorem heedless_ask_bind {q : Question} {f : q.Answer → Action β}
    (other : ∀ link, q ≠ .closeChat link) (hf : ∀ answer, (f answer).run.Heedless) :
    (ask q >>= f).run.Heedless :=
  .ask other hf

theorem heedless_store {op : Store.Operation} : (store op).run.Heedless :=
  Program.heedless_answer nofun

theorem heedless_lift {p : Program α} (h : p.Heedless) :
    (ExceptT.lift p : Action α).run.Heedless := by
  rw [ExceptT.run_lift]
  exact h.bind fun _ => .done _

end Action

open Rendezvous.Action

namespace Service

variable (s : Service)

theorem heedless_reject {α : Type} (fault : Token.Fault) :
    (reject fault : Action α).run.Heedless := by
  cases fault with
  | malformed reason => exact heedless_ask_bind nofun fun _ => .done _
  | invalid => exact heedless_ask_bind nofun fun _ => .done _
  | noEntropy => exact .done _

theorem heedless_resolve (reference : String) : (s.resolve reference).run.Heedless := by
  unfold resolve
  cases s.cipher.redeem reference with
  | ok id => exact .done _
  | error fault =>
    dsimp only
    split
    · exact .done _
    · exact heedless_reject fault

theorem heedless_fetchVisible (id : String) : (fetchVisible id).run.Heedless := by
  refine heedless_bind heedless_store fun m => heedless_ask_bind nofun fun now => ?_
  split
  · exact .done _
  · exact .done _

theorem heedless_closeChat (id : String) : (closeChat id).Heedless := by
  refine (Program.heedless_answer (q := .store (.chatLink id)) nofun).bind fun r => ?_
  rcases r with fault | _ | link
  · exact .done _
  · exact .done _
  · exact .closeChat link (.done _)

theorem heedless_attachCall (reference callId : String) (bridged : Bool) :
    (s.attachCall reference callId bridged).run.Heedless := by
  refine heedless_bind (s.heedless_resolve reference) fun id =>
    heedless_bind (heedless_fetchVisible id) fun m => ?_
  split
  · exact .done _
  · refine heedless_bind heedless_store fun _ => ?_
    exact heedless_bind (heedless_lift (heedless_closeChat id)) fun _ => .done _

end Service

namespace Deployment

theorem handle_chat (d : Deployment) (chat : Collaborator ChatLink) {q : Question}
    (other : ∀ link, q ≠ .closeChat link) :
    { d with chat }.handle q = ((d.handle q).1, { (d.handle q).2 with chat }) := by
  cases q with
  | closeChat link => exact absurd rfl (other link)
  | store op =>
    change { d with chat }.perform op = ((d.perform op).1, { (d.perform op).2 with chat })
    unfold perform
    cases d.faults op.kind with
    | some fault => rfl
    | none =>
      dsimp only
      cases op.event? Store.Memory.backend (d.memory.perform d.storeClock.now op).1 <;> rfl
  | _ => rfl

/-- Where nothing depends on what the chat service answers, another one makes no difference but to
itself. -/
theorem run_chat {α : Type} {p : Program α} (h : p.Heedless) (d : Deployment)
    (chat : Collaborator ChatLink) : ∃ chat',
    { d with chat }.run p = ((d.run p).1, { (d.run p).2 with chat := chat' }) := by
  induction h generalizing d chat with
  | done a => exact ⟨chat, rfl⟩
  | @ask q next other _ ih =>
    obtain ⟨chat', hrun⟩ := ih (d.handle q).1 (d.handle q).2 chat
    refine ⟨chat', ?_⟩
    change ({ d with chat }.handle q).2.run (next ({ d with chat }.handle q).1) = _
    rw [d.handle_chat chat other]
    exact hrun
  | closeChat link _ ih => exact ih (d.handle (.closeChat link)).2 (chat.call link).2

end Deployment

end Rendezvous
