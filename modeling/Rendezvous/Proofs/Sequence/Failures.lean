import Rendezvous.Proofs.Sequence.Counters
import Rendezvous.Proofs.Store.History

namespace Rendezvous

open Metrics Store

def Reply.fault? : Reply → Option Fault
  | created (.error fault) => some fault
  | got (.error fault) => some fault
  | deleted (.error fault) => some fault
  | attached (.error fault) => some fault
  | submitted (.error fault) => some fault
  | _ => none

/-- That nothing is different in a later deployment that is stored or linked, and no chat has been
closed, but that a meeting may be gone that was sought and had expired without a call. -/
structure Deployment.Undisturbed (d d' : Deployment) (sought? : Option String) : Prop where
  stored : d'.memory.meetings.Perm d.memory.meetings ∨
    ∃ id m, sought? = some id ∧ d.memory.find? id = some m ∧ m.isExpiredAt d.storeClock.now ∧
      m.callId = none ∧ d'.memory.meetings = d.memory.without id
  linked : d'.memory.chats = d.memory.chats
  chat : d'.chat = d.chat

/-- That the call engine has been told of an answer to an open survey, and of nothing else. -/
inductive Service.Asked (s : Service) (d d' : Deployment) : Command → Prop where
  | submit {token answer id callId value : String} {m : Meeting}
      (tidy : Meeting.tidyAnswer answer = .ok value) (known : s.cipher.redeem token = .ok id)
      (shown : Shows d id m) (allowed : m.allowsSatisfaction) (called : m.callId = some callId)
      (engine : d'.engine =
        (d.engine.call ⟨m.domainId, callId, .single "meeting_satisfaction" value⟩).2) :
      Asked s d d' (.submit token answer)

structure Traceless (s : Service) (c : Command) (d d' : Deployment) : Prop extends
    d.Undisturbed d' ((Happening.command c).addressee? s d.entropy) where
  uncounted : d'.tally.of Counter.created.series = d.tally.of Counter.created.series
  engine : d'.engine = d.engine ∨ s.Asked d d' c

open Service

section

variable {s : Service} {d d' : Deployment} {id : String}

theorem Service.Resolves.referent? {reference : String} (h : s.Resolves reference id) :
    s.referent? reference = some id := by
  unfold Service.referent?
  rcases h with h | ⟨⟨fault, h⟩, hid, rfl⟩
  · simp only [h]
  · simp only [h, hid, if_true]

theorem Deployment.Undisturbed.promote (hk : d.memory.Keyed) {m : Meeting}
    (held : d.memory.find? id = some m) (engine : Collaborator Push) (tally : Tally)
    (sought? : Option String) :
    d.Undisturbed { d with memory := d.memory.promote m, engine, tally } sought? :=
  ⟨.inl (hk.perm_promote held), rfl, rfl⟩

/-- Reading drops at most the meeting that is sought. -/
theorem Service.Fetched.undisturbed (hk : d.memory.Keyed) {r : Except Fault Meeting}
    (h : Fetched d id (r, d')) : d.Undisturbed d' (some id) ∧ d'.engine = d.engine := by
  cases h with
  | hidden tally held fresh expired => exact ⟨.promote hk held _ tally _, rfl⟩
  | seen tally shown => exact ⟨.promote hk shown.held _ tally _, rfl⟩
  | absent tally gone =>
    refine ⟨⟨?_, rfl, rfl⟩, rfl⟩
    cases hfind : d.memory.find? id with
    | none =>
      rw [Memory.pop_of_find?_eq_none hfind]
      exact .inl (List.Perm.refl _)
    | some m =>
      obtain ⟨expired, uncalled⟩ := not_isVisibleAt.mp (gone m hfind)
      exact .inr ⟨id, m, rfl, hfind, decide_eq_true expired, uncalled, rfl⟩

/-- What a command does to the store, the chats and the call engine when it fails. -/
theorem undisturbed_of_failed (healthy : d.Healthy) (hk : d.memory.Keyed) {c : Command}
    {fault : Fault} (failed : (Deployment.platform.obey s c d).1.fault? = some fault) :
    d.Undisturbed (Deployment.platform.obey s c d).2
        ((Happening.command c).addressee? s d.entropy) ∧
      ((Deployment.platform.obey s c d).2.engine = d.engine ∨
        s.Asked d (Deployment.platform.obey s c d).2 c) := by
  have still (sought? : Option String) (entropy : Entropy) (tally : Tally) :
      d.Undisturbed { d with entropy, tally } sought? := ⟨.inl (List.Perm.refl _), rfl, rfl⟩
  cases c with
  | setClock | linkChat | unlinkChat => cases failed
  | sweep cutoff =>
    simp only [Platform.obey, tell_eq] at failed
    cases failed
  | create draft =>
    have hresult := s.created healthy draft
    simp only [Platform.obey, tell_eq] at failed ⊢
    generalize d.run (s.create draft).run = z at hresult failed
    cases hresult with
    | failed fault entropy tally => exact ⟨still _ entropy tally, .inl rfl⟩
    | stored => cases failed
  | get token =>
    have hresult := s.got healthy token
    simp only [Platform.obey, tell_eq] at failed ⊢
    generalize d.run (s.get token).run = z at hresult failed
    cases hresult with
    | rejected tally unknown => exact ⟨still _ d.entropy tally, .inl rfl⟩
    | gone | seen => cases failed
  | delete token =>
    have hresult := s.deleted healthy token
    simp only [Platform.obey, tell_eq] at failed ⊢
    generalize d.run (s.delete token).run = z at hresult failed
    cases hresult with
    | rejected tally unknown => exact ⟨still _ d.entropy tally, .inl rfl⟩
    | absent tally known gone => exact ⟨still _ d.entropy tally, .inl rfl⟩
    | removed => cases failed
  | attachCall reference callId bridged =>
    have hresult := s.attached healthy reference callId bridged
    simp only [Platform.obey, tell_eq] at failed ⊢
    generalize d.run (s.attachCall reference callId bridged).run = z at hresult failed
    cases hresult with
    | rejected tally unknown => exact ⟨still _ d.entropy tally, .inl rfl⟩
    | missed known read =>
      obtain ⟨undisturbed, engine⟩ := read.undisturbed hk
      have haddressee : (Happening.command (.attachCall reference callId bridged)).addressee? s
        d.entropy = s.referent? reference := rfl
      rw [haddressee, known.referent?]
      exact ⟨undisturbed, .inl engine⟩
    | alreadyLinked | linked => cases failed
  | submit token answer =>
    have hresult := s.submitted healthy token answer
    simp only [Platform.obey, tell_eq] at failed ⊢
    generalize d.run (s.submit token answer).run = z at hresult failed
    cases hresult with
    | untidy refused => exact ⟨still _ d.entropy d.tally, .inl rfl⟩
    | rejected tally unknown => exact ⟨still _ d.entropy tally, .inl rfl⟩
    | missed known read =>
      obtain ⟨undisturbed, engine⟩ := read.undisturbed hk
      have haddressee : (Happening.command (.submit token answer)).addressee? s d.entropy =
        (s.cipher.redeem token).toOption := rfl
      rw [haddressee, known]
      exact ⟨undisturbed, .inl engine⟩
    | notAllowed tally known shown closed =>
      exact ⟨.promote hk shown.held _ tally _, .inl rfl⟩
    | refused tally tidy known shown opened pushed =>
      refine ⟨.promote hk shown.held _ tally _, .inr ?_⟩
      exact .submit tidy known shown (allowsSatisfaction_of_surveyedCall opened)
        (of_surveyedCall opened).1 (congrArg Prod.snd pushed).symm
    | noted => cases failed

theorem Service.Presenting.weight_created {α : Type} {plain : Prop} {events : List Event}
    {r : Except Fault α} (h : Presenting plain events r) : weight .created events = 0 := by
  cases h with
  | accepted | rejected => rfl

theorem Service.Answering.weight_created {plain : Prop} {events : List Event} {pushed : Bool}
    {r : Except Fault Unit} (h : Answering plain events pushed r) :
    weight .created events = 0 := by
  cases h with
  | missed | rejected | notAllowed | failed | noted => rfl

/-- No command that fails is counted as the creation of a meeting. -/
theorem weight_created_of_failed {c : Command} {fault : Fault}
    (failed : (Deployment.platform.obey s c d).1.fault? = some fault) :
    weight .created (counted ((Happening.command c).transcript s d)) = 0 := by
  cases c with
  | setClock | linkChat | unlinkChat => rfl
  | sweep cutoff =>
    simp only [Platform.obey, tell_eq] at failed
    cases failed
  | create draft =>
    have hcreate := (Deployment.of_ensures (s.ends_create draft) d).counted
    simp only [Platform.obey, tell_eq, Happening.transcript] at failed ⊢
    rcases hcreate with ⟨hcounted, -⟩ | ⟨-, ticket, hr⟩
    · rw [hcounted]
      rfl
    · rw [hr] at failed
      cases failed
  | get token => exact (Deployment.of_ensures (s.ends_get token) d).presenting.weight_created
  | delete token => exact (Deployment.of_ensures (s.ends_delete token) d).presenting.weight_created
  | attachCall reference callId bridged =>
    exact (Deployment.of_ensures
      (s.ends_attachCall reference callId bridged) d).presenting.weight_created
  | submit token answer =>
    exact (Deployment.of_ensures (s.ends_submit token answer) d).answering.weight_created

end

/-- In each course from the start of a service, whatever the collaborators answer and however the
clocks go, a command that fails leaves no trace: all that is stored keeps all its fields, nothing is
added, and nothing is gone but the meeting that is addressed, if it has expired without a call; the
links to chats are the same, no chat is closed and no creation is counted; and the call engine has
been asked nothing, but to take the answer to a survey that was open. -/
theorem failure_leaves_no_trace (s : Service) {now : Int64} {capacity : Nat}
    {chat : Collaborator ChatLink} {engine : Collaborator Push} {entropy : Entropy}
    {ms : List Moment} {d : Deployment}
    (course : Course s (.start now capacity chat engine entropy) ms d) {c : Command} {fault : Fault}
    (failed : (Deployment.platform.obey s c d).1.fault? = some fault) :
    Traceless s c d (Deployment.platform.obey s c d).2 := by
  have healthy : d.Healthy := course.healthy fun _ => rfl
  have keyed : d.memory.Keyed := course.keyed List.nodup_nil
  obtain ⟨undisturbed, engine⟩ := undisturbed_of_failed healthy keyed failed
  refine ⟨undisturbed, ?_, engine⟩
  have hgrown := (Happening.command c).tally_befall (s := s) (d := d) .created
  rw [weight_created_of_failed failed] at hgrown
  exact hgrown

open Happening.Sample System.Sample in
theorem Happening.Sample.submit_refused (s : Service) (tally : Tally) :
    (Deployment.platform.obey s (.submit (token s) " good ")
      (state [called s] [] (entropy 2) tally)).1.fault? =
        some (.unavailable "connection refused") := by
  simp only [Platform.obey]
  unfold Service.submit Service.redeem
  rw [redeem_token, tidyAnswer_spaced]
  rfl

open Happening.Sample System.Sample in
/-- An answer that the call engine refuses leaves the meeting as it was. -/
theorem refused_without_trace : ∃ ms d,
    Course service (.start 0 1 .accepting (.present answers []) (entropy 0)) ms d ∧
    d.memory.meetings = [called service] ∧
    (Deployment.platform.obey service (.submit (token service) " good ") d).1.fault? =
      some (.unavailable "connection refused") ∧
    Traceless service (.submit (token service) " good ") d
      (Deployment.platform.obey service (.submit (token service) " good ") d).2 := by
  obtain ⟨tally₁, h₁⟩ := create_state service .empty
  obtain ⟨tally₂, h₂⟩ := attach_state service tally₁
  have course : Course service (state [] [] (entropy 0) .empty) [] _ := .start
  have course := course.next (.command (.create draft))
  rw [h₁] at course
  have course := course.next (.command (.attachCall id "c" true))
  rw [h₂] at course
  have failed := submit_refused service tally₂
  exact ⟨_, _, course, rfl, failed, failure_leaves_no_trace service course failed⟩

end Rendezvous
