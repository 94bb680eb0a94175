import Rendezvous.Proofs.Equivalence.Command
import Rendezvous.Proofs.Service.Results

namespace Rendezvous

open Store

inductive Happening where
  | command (c : Command)
  | event (payload : List UInt8)
  /-- the clocks of the service and of the store are set, each on its own -/
  | setClocks (service store : Int64)

structure Moment where
  happening : Happening
  before : Deployment
  reply : Reply
  after : Deployment

namespace Happening

def befall (s : Service) (d : Deployment) : Happening → Reply × Deployment
  | command c => Deployment.platform.obey s c d
  | event payload => (.silent, (d.run (s.takeEvent payload)).2)
  | setClocks service store => (.silent, { d with clock := ⟨service⟩, storeClock := ⟨store⟩ })

def moment (s : Service) (d : Deployment) (x : Happening) : Moment :=
  ⟨x, d, (x.befall s d).1, (x.befall s d).2⟩

end Happening

def Moment.created? (s : Service) (x : Moment) : Option String :=
  match x.reply with
  | .created (.ok ticket) => (s.cipher.redeem ticket.token).toOption
  | _ => none

/-- What has happened since a service was found in a deployment, the last first, and how it is
then. -/
inductive Course (s : Service) (d₀ : Deployment) : List Moment → Deployment → Prop where
  | start : Course s d₀ [] d₀
  | next {ms : List Moment} {d : Deployment} (course : Course s d₀ ms d) (x : Happening) :
      Course s d₀ (x.moment s d :: ms) (x.befall s d).2

section

variable {s : Service} {d d' : Deployment}

theorem tell_eq {α : Type} (p : Program α) (f : α → Reply) (d : Deployment) :
    Deployment.platform.tell p f d = (f (d.run p).1, (d.run p).2) := rfl

/-- What is kept by the answer to each question, and does not concern the clocks and the links to
chats, is kept by a happening. -/
theorem Happening.induction {P : Deployment → Prop} (step : ∀ d q, P d → P (d.handle q).2)
    (clocks : ∀ d clock storeClock, P d → P { d with clock, storeClock })
    (chats : ∀ d chats, P d → P { d with memory := { d.memory with chats } })
    (h : P d) (x : Happening) : P (x.befall s d).2 := by
  have run {α : Type} (p : Program α) : P (d.run p).2 := Deployment.run_induction step h p
  have tell {α : Type} (p : Program α) (f : α → Reply) : P (Deployment.platform.tell p f d).2 := by
    rw [tell_eq]
    exact run p
  cases x with
  | event payload => exact run (s.takeEvent payload)
  | setClocks service store => exact clocks d _ _ h
  | command c =>
    cases c with
    | create draft => exact tell (s.create draft).run .created
    | get token => exact tell (s.get token).run .got
    | delete token => exact tell (s.delete token).run .deleted
    | attachCall reference callId bridged =>
      exact tell (s.attachCall reference callId bridged).run .attached
    | submit token answer => exact tell (s.submit token answer).run .submitted
    | sweep cutoff => exact tell (Service.sweep cutoff) fun _ => .silent
    | setClock now => exact clocks d _ _ h
    | linkChat id link => exact chats d _ h
    | unlinkChat id => exact chats d _ h

theorem Happening.healthy (h : d.Healthy) (x : Happening) : (x.befall s d).2.Healthy :=
  x.induction (fun _ q h => h.handle q) (fun _ _ _ h => h) (fun _ _ h => h) h

theorem Happening.keyed (h : d.memory.Keyed) (x : Happening) : (x.befall s d).2.memory.Keyed :=
  x.induction (P := fun d => d.memory.Keyed) (fun _ q h => Deployment.keyed_handle h q)
    (fun _ _ _ h => h) (fun _ _ h => h) h

/-- What a happening can do to the meetings and to the call engine. -/
inductive Effect (s : Service) (d : Deployment) : Happening → Reply × Deployment → Prop where
  | none {x : Happening} {r : Reply} {d' : Deployment}
      (meetings : d'.memory.meetings ⊆ d.memory.meetings) (engine : d'.engine = d.engine)
      (uncreated : ∀ ticket, r ≠ .created (.ok ticket))
      (unanswered : r ≠ .submitted (.ok ())) : Effect s d x (r, d')
  | created {draft : Meeting.Draft} {nonce : Token.Nonce} {m : Meeting} {d' : Deployment}
      (meetings : ∀ n ∈ d'.memory.meetings, n = m ∨ n ∈ d.memory.meetings ∧ n.id ≠ m.id)
      (engine : d'.engine = d.engine) (unanswered : m.satisfaction = none) :
      Effect s d (.command (.create draft))
        (.created (.ok ⟨s.cipher.issue nonce m.id, m.url⟩), d')
  | called {x : Happening} {r : Reply} {d' : Deployment} {m : Meeting} {callId : String}
      {bridged : Bool} (held : m ∈ d.memory.meetings) (uncalled : m.callId = .none)
      (meetings : ∀ n ∈ d'.memory.meetings, n = { m with callId := some callId, bridged } ∨
        n ∈ d.memory.meetings ∧ n.id ≠ m.id)
      (engine : d'.engine = d.engine)
      (uncreated : ∀ ticket, r ≠ .created (.ok ticket))
      (unanswered : r ≠ .submitted (.ok ())) : Effect s d x (r, d')
  | refused {token answer id callId value : String} {m : Meeting} {fault : Fault}
      {engine : Collaborator Push} (tally : Metrics.Tally)
      (tidy : Meeting.tidyAnswer answer = .ok value) (known : s.cipher.redeem token = .ok id)
      (shown : Service.Shows d id m) (opened : Service.surveyedCall m = .ok callId)
      (pushed : d.engine.call (Service.push m callId value) = (.error fault, engine)) :
      Effect s d (.command (.submit token answer)) (.submitted (.error fault),
        { d with memory := d.memory.promote m, engine, tally })
  | noted {token answer id callId value : String} {m : Meeting} {engine : Collaborator Push}
      (tally : Metrics.Tally) (tidy : Meeting.tidyAnswer answer = .ok value)
      (known : s.cipher.redeem token = .ok id) (shown : Service.Shows d id m)
      (opened : Service.surveyedCall m = .ok callId)
      (pushed : d.engine.call (Service.push m callId value) = (.ok (), engine)) :
      Effect s d (.command (.submit token answer)) (.submitted (.ok ()),
        { d with memory := d.memory.promote { m with satisfaction := some value }, engine, tally })

theorem promote_subset {id : String} {m : Meeting} (h : d.memory.find? id = some m) :
    (d.memory.promote m).meetings ⊆ d.memory.meetings := by
  intro n hn
  rcases Memory.mem_promote.mp hn with rfl | ⟨hn, _⟩
  · exact (Memory.find?_mem h).1
  · exact hn

theorem Service.Fetched.subset {id : String} {r : Except Fault Meeting}
    (h : Service.Fetched d id (r, d')) :
    d'.memory.meetings ⊆ d.memory.meetings ∧ d'.engine = d.engine := by
  cases h with
  | absent tally gone => exact ⟨List.filter_subset_self .., rfl⟩
  | hidden tally held fresh expired => exact ⟨promote_subset held, rfl⟩
  | seen tally shown => exact ⟨promote_subset shown.held, rfl⟩

theorem Effect.of_attached {x : Happening} {r : Reply} {reference callId : String} {bridged : Bool}
    {a : Except Fault Service.CallLink} (h : s.Attached d reference callId bridged (a, d'))
    {tally : Metrics.Tally} (uncreated : ∀ ticket, r ≠ .created (.ok ticket))
    (unanswered : r ≠ .submitted (.ok ())) : Effect s d x (r, { d' with tally }) := by
  cases h with
  | rejected => exact .none (List.Subset.refl _) rfl uncreated unanswered
  | missed known read => exact .none read.subset.1 read.subset.2 uncreated unanswered
  | alreadyLinked tally known shown called =>
    exact .none (promote_subset shown.held) rfl uncreated unanswered
  | linked tally known shown uncalled =>
    exact .called (Memory.find?_mem shown.held).1 uncalled (fun n hn => Memory.mem_promote.mp hn)
      rfl uncreated unanswered

/-- An action has the effect of what it ends with. -/
theorem Effect.of_tell {α : Type} {p : Program α} {f : α → Reply} {x : Happening}
    {ends : α × Deployment → Prop} (h : ends (d.run p))
    (effect : ∀ a d', ends (a, d') → Effect s d x (f a, d')) :
    Effect s d x (Deployment.platform.tell p f d) := by
  rw [tell_eq]
  exact effect _ _ h

theorem effect_create (h : d.Healthy) (draft : Meeting.Draft) :
    Effect s d (.command (.create draft)) (Happening.befall s d (.command (.create draft))) := by
  refine Effect.of_tell (s.created h draft) fun r d' hresult => ?_
  cases hresult with
  | failed fault entropy tally => exact .none (List.Subset.refl _) rfl nofun nofun
  | @stored tidy octets id url nonce entropy tally =>
    refine .created (m := .ofDraft tidy id url d.clock.now s.defaultTtl) ?_ rfl rfl
    intro n hn
    exact Memory.mem_promote.mp (List.mem_of_mem_take hn)

theorem effect_submit (h : d.Healthy) (token answer : String) :
    Effect s d (.command (.submit token answer))
      (Happening.befall s d (.command (.submit token answer))) := by
  refine Effect.of_tell (s.submitted h token answer) fun r d' hresult => ?_
  cases hresult with
  | untidy => exact .none (List.Subset.refl _) rfl nofun nofun
  | rejected => exact .none (List.Subset.refl _) rfl nofun nofun
  | missed known read => exact .none read.subset.1 read.subset.2 nofun nofun
  | notAllowed tally known shown closed => exact .none (promote_subset shown.held) rfl nofun nofun
  | refused tally tidy known shown opened pushed =>
    exact .refused tally tidy known shown opened pushed
  | noted tally tidy known shown opened pushed => exact .noted tally tidy known shown opened pushed

theorem effect_event (h : d.Healthy) (payload : List UInt8) :
    Effect s d (.event payload) (Happening.befall s d (.event payload)) := by
  have hresult := s.taken h payload
  change Effect s d _ (.silent, (d.run (s.takeEvent payload)).2)
  generalize d.run (s.takeEvent payload) = x at hresult
  cases hresult with
  | unparseable => exact .none (List.Subset.refl _) rfl nofun nofun
  | skipped => exact .none (List.Subset.refl _) rfl nofun nofun
  | attached tally read related result => exact .of_attached result nofun nofun

/-- A meeting is created in a moment in which its creator gets a token, and in no other. -/
theorem created?_eq_none {x : Moment} (h : ∀ ticket, x.reply ≠ .created (.ok ticket)) :
    x.created? s = none := by
  unfold Moment.created?
  split
  · next ticket hr => exact absurd hr (h ticket)
  · rfl

theorem created?_eq_some {x : Moment} {nonce : Token.Nonce} {id url : String}
    (h : x.reply = .created (.ok ⟨s.cipher.issue nonce id, url⟩)) : x.created? s = some id := by
  simp only [Moment.created?, h, s.cipher.redeem_issue, Except.toOption]

theorem effect (h : d.Healthy) (x : Happening) : Effect s d x (x.befall s d) := by
  cases x with
  | event payload => exact effect_event h payload
  | setClocks service store => exact .none (List.Subset.refl _) rfl nofun nofun
  | command c =>
    cases c with
    | create draft => exact effect_create h draft
    | submit token answer => exact effect_submit h token answer
    | get token =>
      refine Effect.of_tell (s.got h token) fun r d' hresult => ?_
      cases hresult with
      | rejected => exact .none (List.Subset.refl _) rfl nofun nofun
      | gone known read => exact .none read.subset.1 read.subset.2 nofun nofun
      | seen tally known shown => exact .none (promote_subset shown.held) rfl nofun nofun
    | delete token =>
      refine Effect.of_tell (s.deleted h token) fun r d' hresult => ?_
      cases hresult with
      | rejected => exact .none (List.Subset.refl _) rfl nofun nofun
      | absent => exact .none (List.Subset.refl _) rfl nofun nofun
      | removed => exact .none (List.filter_subset_self ..) rfl nofun nofun
    | attachCall reference callId bridged =>
      exact .of_tell (s.attached h reference callId bridged) fun r d' hresult =>
        .of_attached hresult nofun nofun
    | sweep cutoff =>
      obtain ⟨tally, hsweep⟩ := Service.run_sweep h cutoff
      change Effect s d _ (.silent, (d.run (Service.sweep cutoff)).2)
      rw [hsweep]
      exact .none (List.filter_subset_self ..) rfl nofun nofun
    | setClock => exact .none (List.Subset.refl _) rfl nofun nofun
    | linkChat => exact .none (List.Subset.refl _) rfl nofun nofun
    | unlinkChat => exact .none (List.Subset.refl _) rfl nofun nofun

variable {d₀ : Deployment} {ms : List Moment}

theorem Course.healthy (h : Course s d₀ ms d) (h₀ : d₀.Healthy) : d.Healthy := by
  induction h with
  | start => exact h₀
  | next _ x ih => exact x.healthy ih

theorem Course.keyed (h : Course s d₀ ms d) (h₀ : d₀.memory.Keyed) : d.memory.Keyed := by
  induction h with
  | start => exact h₀
  | next _ x ih => exact x.keyed ih

end

end Rendezvous
