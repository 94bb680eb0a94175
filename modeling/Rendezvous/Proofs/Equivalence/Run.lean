import Rendezvous.Proofs.Equivalence.Actions

namespace Rendezvous

open Store

variable {spent : List String} {d : Deployment} {b : Archive}

theorem Action.Agree.tell {α : Type} {a : Action α} {post : α → Deployment → Prop}
    (h : a.Agree spent post d b) {f : Except Fault α → Reply}
    (hf : ∀ r, (f r).blur = f (r.mapError Fault.blur)) :
    (Deployment.platform.tell a.run f d).1.blur = (Archive.platform.tell a.run f b).1.blur ∧
      Alike spent (Deployment.platform.tell a.run f d).2 (Archive.platform.tell a.run f b).2 := by
  change (f (a.run.run Deployment.handle d).1).blur = (f (a.run.run Archive.handle b).1).blur ∧
    Alike spent (a.run.run Deployment.handle d).2 (a.run.run Archive.handle b).2
  unfold Agree at h
  generalize a.run.run Deployment.handle d = x at h
  generalize a.run.run Archive.handle b = y at h
  cases h with
  | ok alike _ => exact ⟨rfl, alike⟩
  | error alike told =>
    refine ⟨?_, alike⟩
    rw [hf, hf]
    exact congrArg (fun fault => f (.error fault)) told

/-- A command does the same to a deployment and to an archive. -/
theorem alike_obey (s : Service) (h : Alike spent d b) {c : Command}
    (hc : c.Admissible s spent d b) :
    (Deployment.platform.obey s c d).1.blur = (Archive.platform.obey s c b).1.blur ∧
      Alike ((c.newId? d.entropy).toList ++ spent) (Deployment.platform.obey s c d).2
        (Archive.platform.obey s c b).2 := by
  cases c with
  | create draft => exact (agree_create s h draft hc.fresh hc.room).tell fun _ => rfl
  | get token => exact (agree_get s h token).tell fun _ => rfl
  | delete token =>
    refine (agree_delete s h token ?_).tell fun _ => rfl
    intro id m hid hm
    exact hc.visible token id m rfl hid hm
  | attachCall reference callId bridged =>
    exact (agree_attachCall s h reference callId bridged).tell fun _ => rfl
  | submit token answer => exact (agree_submit s h token answer).tell fun _ => rfl
  | sweep cutoff => exact ⟨rfl, alike_sweep h cutoff⟩
  | setClock now =>
    exact ⟨rfl, { h with
      clock := rfl
      storeClock := rfl
      stores := h.stores.later (hc.forward now rfl) }⟩
  | linkChat id link => exact ⟨rfl, { h with stores := h.stores.linkChat id link }⟩
  | unlinkChat id => exact ⟨rfl, { h with stores := h.stores.unlinkChat id }⟩

theorem observe_eq_of_alike (s : Service) (h : Alike spent d b) {cs : List Command}
    (hcs : Command.Orderly s cs spent d b) :
    Deployment.platform.observe s cs d = Archive.platform.observe s cs b := by
  induction cs generalizing spent d b with
  | nil => rfl
  | cons c cs ih =>
    obtain ⟨hc, hrest⟩ := hcs
    obtain ⟨hreply, halike⟩ := alike_obey s h hc
    have htail := ih halike hrest
    have hchat : Deployment.platform.chat (Deployment.platform.obey s c d).2 =
        Archive.platform.chat (Archive.platform.obey s c b).2 := halike.chat
    have hengine : Deployment.platform.engine (Deployment.platform.obey s c d).2 =
        Archive.platform.engine (Archive.platform.obey s c b).2 := halike.engine
    rw [Platform.observe_cons, Platform.observe_cons, hreply, hchat, hengine, htail]

/-- From the start of a service on, each command is answered the same and makes the same calls,
whether the service keeps its meetings in memory or in a ledger. -/
theorem observe_memory_eq_ledger (s : Service) (now : Int64) (capacity : Nat)
    (chat : Collaborator ChatLink) (engine : Collaborator Push) (entropy : Entropy)
    {cs : List Command}
    (h : Command.Orderly s cs [] (.start now capacity chat engine entropy)
      (.start now chat engine entropy)) :
    Deployment.platform.observe s cs (.start now capacity chat engine entropy) =
      Archive.platform.observe s cs (.start now chat engine entropy) :=
  observe_eq_of_alike s (.start now capacity chat engine entropy) h

namespace Command.Sample

def service : Service := ⟨⟨[]⟩, Memory.backend, Meeting.defaultTtl⟩

def draft : Meeting.Draft := ⟨1, "title", 60, "/m", .empty⟩

def id : String := "AAAAAAAAAAAAAAAAAAAAA"

/-- A meeting is asked for when it has expired. -/
def commands : List Command := [.create draft, .setClock 60, .attachCall id "c" true]

def entropy : Entropy := ⟨fun _ n => some (Vector.replicate n 0), 0⟩

def deployment : Deployment := .start 0 1 .accepting .accepting entropy

def archive : Archive := .start 0 .accepting .accepting entropy

end Command.Sample

open Command.Sample in
theorem observe_lapsed : Command.Orderly service commands [] deployment archive ∧
    Deployment.platform.observe service commands deployment =
      Archive.platform.observe service commands archive := by
  have h : Command.Orderly service commands [] deployment archive := by
    refine ⟨⟨?_, ?_, nofun, nofun⟩, ⟨nofun, nofun, nofun, ?_⟩,
      ⟨nofun, nofun, nofun, nofun⟩, trivial⟩
    · exact fun _ _ => List.not_mem_nil
    · exact fun _ _ => Nat.zero_lt_one
    · rintro now ⟨⟩
      decide
  exact ⟨h, observe_memory_eq_ledger service 0 1 .accepting .accepting entropy h⟩

end Rendezvous
