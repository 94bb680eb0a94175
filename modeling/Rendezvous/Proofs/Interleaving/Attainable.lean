import Rendezvous.Proofs.Interleaving.Past
import Rendezvous.Proofs.Meeting.Identifier

namespace Rendezvous

open Store

namespace Deployment

/-- What a deployment can come to while a service works in it. Unlike in a system, an identifier may
be drawn twice. -/
inductive Attainable : Deployment → Prop where
  | start (now : Int64) (capacity : Nat) (chat : Collaborator ChatLink)
      (engine : Collaborator Push) (entropy : Entropy) :
      Attainable (.start now capacity chat engine entropy)
  | answer {d : Deployment} (h : d.Attainable) (q : Question)
      (identified : ∀ m, q = .store (.create m) → Meeting.Identifier.isIdentifier m.id) :
      Attainable (d.handle q).2
  | drift {d : Deployment} (h : d.Attainable) (d' : Deployment)
      (kept : d'.memory.meetings = d.memory.meetings)
      (bounded : d'.memory.capacity = d.memory.capacity) : Attainable d'

variable {d : Deployment}

theorem Attainable.keyed (h : d.Attainable) : d.memory.Keyed := by
  induction h with
  | start => exact List.nodup_nil
  | answer _ q _ ih => exact keyed_handle ih q
  | drift _ d' kept _ ih =>
    unfold Memory.Keyed
    rw [kept]
    exact ih

theorem Attainable.isIdentifier (h : d.Attainable) {m : Meeting} (hm : m ∈ d.memory.meetings) :
    Meeting.Identifier.isIdentifier m.id := by
  induction h generalizing m with
  | start => cases hm
  | answer _ q identified ih =>
    rcases mem_handle hm with ⟨n, hn, rfl⟩ | hcreated
    · rw [Exchange.id_effect]
      exact ih hn
    · exact identified m (congrArg Exchange.question hcreated)
  | drift _ d' kept _ ih => exact ih (kept ▸ hm)

end Deployment

/-- The deployment of a system that can come about is attainable. -/
theorem System.Reachable.attainable {s : Service} {w : System} (h : System.Reachable s w) :
    w.deployment.Attainable := by
  refine h.induction (P := fun w => w.deployment.Attainable)
    (fun now capacity chat engine entropy => .start now capacity chat engine entropy) ?_
  intro w w' hw ih step
  cases step with
  | begin a free => exact ih
  | abandon i a p runs request => exact ih
  | drift d kept bounded => exact ih.drift d kept bounded
  | @answer _ i a e answers =>
    have hwarrants := hw.warrants answers
    cases answers with
    | intro q next asks fresh =>
      refine ih.answer q ?_
      rintro m rfl
      cases a with
      | create draft =>
        obtain ⟨octets, nonce, now, d, url, _, rfl⟩ := hwarrants
        exact Meeting.Identifier.isIdentifier_ofOctets octets
      | _ => exact hwarrants.elim

end Rendezvous
