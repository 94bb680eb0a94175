import Rendezvous.Proofs.Equivalence.Agreement
import Rendezvous.Proofs.Service.Results

namespace Rendezvous

open Rendezvous.Action Store

variable {spent : List String} {d : Deployment} {b : Archive}

/-- A reading finds in both what callers may see; what they may not, the ledger may find alone. -/
theorem Alike.handle_get (h : Alike spent d b) (id : String) :
    (∃ m d', d.handle (.store (.get id)) = (.ok m, d') ∧
      b.handle (.store (.get id)) = (.ok m, b) ∧ Alike spent d' b ∧
      d'.memory.find? id = some m ∧ m.isVisibleAt b.clock.now) ∨
    ∃ d', d.handle (.store (.get id)) = (.error .notFound, d') ∧ Alike spent d' b ∧
      (b.handle (.store (.get id)) = (.error .notFound, b) ∨
        ∃ m, b.handle (.store (.get id)) = (.ok m, b) ∧ ¬m.isVisibleAt b.clock.now) := by
  obtain ⟨tally, hperform⟩ := h.perform (.get id)
  have hget : d.handle (.store (.get id)) = ((d.memory.get b.clock.now id).1,
      { d with memory := (d.memory.get b.clock.now id).2, tally }) := hperform
  have hread : b.handle (.store (.get id)) = (b.ledger.get id, b) := rfl
  cases hfind : d.memory.find? id with
  | none =>
    rw [Memory.get_of_find?_eq_none hfind] at hget
    refine .inr ⟨_, hget, h.restore h.stores tally, ?_⟩
    rw [hread, Ledger.get]
    cases hm : b.ledger.meetings.get? id with
    | none => exact .inl rfl
    | some m => exact .inr ⟨m, rfl, (h.stores.gone hm hfind).2⟩
  | some m =>
    rw [Ledger.get, (h.stores.held hfind).2] at hread
    by_cases hv : m.isVisibleAt b.clock.now
    · rw [Memory.get_of_visible hfind hv] at hget
      have hpromote : (d.memory.promote m).find? id = some m := by
        obtain ⟨_, hid⟩ := Memory.find?_mem hfind
        rw [Memory.find?_promote, if_pos hid.symm]
      have halike := h.restore (h.stores.promote hfind) tally
      exact .inl ⟨m, _, hget, hread, halike, hpromote, hv⟩
    · rw [Memory.get_of_not_visible hfind hv] at hget
      have halike := h.restore (h.stores.pop hfind hv) tally
      exact .inr ⟨_, hget, halike, .inr ⟨m, hread, hv⟩⟩

/-- A meeting that callers may see is held by both. -/
theorem agree_fetchVisible (h : Alike spent d b) (id : String) :
    (Service.fetchVisible id).Agree spent (fun m d => d.memory.find? id = some m) d b := by
  unfold Agree
  rcases h.handle_get id with ⟨m, d', hget, hread, h', hfind, hv⟩ |
    ⟨d', hget, h', hread | ⟨m, hread, hv⟩⟩
  · have hv' : m.isVisibleAt (d'.handle .clock).1 := by
      change m.isVisibleAt d'.clock.now
      rwa [h'.clock]
    have hv : m.isVisibleAt (b.handle .clock).1 := hv
    rw [run_fetchVisible_of_ok hget, run_fetchVisible_of_ok hread, if_pos hv, if_pos hv']
    exact .ok h' hfind
  · rw [run_fetchVisible_of_error hget, run_fetchVisible_of_error hread]
    exact .error h' rfl
  · have hv : ¬m.isVisibleAt (b.handle .clock).1 := hv
    rw [run_fetchVisible_of_error hget, run_fetchVisible_of_ok hread, if_neg hv]
    exact .error h' rfl

theorem agree_reject (h : Alike spent d b) {α : Type} {post : α → Deployment → Prop}
    (fault : Token.Fault) : (Service.reject fault).Agree spent post d b := by
  cases fault with
  | malformed reason => exact agree_ask_bind h nofun agree_throw
  | invalid => exact agree_ask_bind h nofun agree_throw
  | noEntropy => exact agree_throw h

theorem agree_redeem (s : Service) (h : Alike spent d b) (token : String) :
    (s.redeem token).Agree spent (fun _ _ => True) d b := by
  unfold Service.redeem
  cases s.cipher.redeem token with
  | ok id => exact agree_pure h trivial
  | error fault => exact agree_reject h fault

theorem agree_resolve (s : Service) (h : Alike spent d b) (reference : String) :
    (s.resolve reference).Agree spent (fun _ _ => True) d b := by
  unfold Service.resolve
  cases s.cipher.redeem reference with
  | ok id => exact agree_pure h trivial
  | error fault =>
    by_cases hid : Meeting.Identifier.isIdentifier reference
    · simp only [hid, if_true]
      exact agree_pure h trivial
    · simp only [hid]
      exact agree_reject h fault

theorem Fault.blur_eq {f g : Fault} (h : f.blur = g.blur) :
    f = g ∨ (f = .notFound ∨ f = .expired) ∧ (g = .notFound ∨ g = .expired) := by
  cases f <;> cases g <;> simp_all [blur]

theorem agree_get (s : Service) (h : Alike spent d b) (token : String) :
    (s.get token).Agree spent (fun _ _ => True) d b := by
  refine (agree_redeem s h token).bind fun id d b h _ => ?_
  refine Agree.tryCatch ?_ fun fault fault' d b h hblur => ?_
  · exact (agree_fetchVisible h id).bind fun m d b h _ => agree_pure h trivial
  · rcases Fault.blur_eq hblur with rfl | ⟨rfl | rfl, rfl | rfl⟩
    · cases fault with
      | notFound | expired => exact .ok h trivial
      | _ => exact .error h rfl
    all_goals exact .ok h trivial

/-- A meeting that has expired without a call may be in the ledger only. -/
theorem agree_delete (s : Service) (h : Alike spent d b) (token : String)
    (hv : ∀ id m, s.cipher.redeem token = .ok id → b.ledger.meetings.get? id = some m →
      m.isVisibleAt b.clock.now) :
    (s.delete token).Agree spent (fun _ _ => True) d b := by
  unfold Service.delete Service.redeem
  cases hid : s.cipher.redeem token with
  | error fault =>
    have hreject : (Service.reject fault : Action String).Agree spent (fun _ _ => False) d b :=
      agree_reject h fault
    exact hreject.bind fun _ _ _ _ hfalse => hfalse.elim
  | ok id =>
    change (store (.delete id)).Agree spent _ d b
    cases hm : b.ledger.meetings.get? id with
    | none =>
      have hs := Memory.delete_of_find?_eq_none (h.stores.find?_eq_none hm)
      have hl := Ledger.delete_of_get?_eq_none hm
      exact agree_store (.delete id) h hs hl h.stores fun _ _ => trivial
    | some m =>
      have hfind := h.stores.find?_of_visible hm (hv id m hid hm)
      have hs := Memory.delete_of_find? hfind
      have hl := Ledger.delete_of_get? hm
      exact agree_store (.delete id) h hs hl (h.stores.delete id) fun _ _ => trivial

theorem alike_closeChat (h : Alike spent d b) {id : String} {m : Meeting}
    (hfind : d.memory.find? id = some m) :
    Alike spent ((Service.closeChat id).run Deployment.handle d).2
      ((Service.closeChat id).run Archive.handle b).2 := by
  obtain ⟨tally, hperform⟩ := h.perform (.chatLink id)
  have hchats : d.memory.chatLink? id = b.ledger.chats.get? id := h.stores.chats_of_held hfind
  have hask : d.handle (.store (.chatLink id)) =
      (.ok (b.ledger.chats.get? id), { d with memory := d.memory, tally }) := by
    rw [← hchats]
    exact hperform
  have hread : b.handle (.store (.chatLink id)) = (.ok (b.ledger.chats.get? id), b) := rfl
  have halike : Alike spent { d with memory := d.memory, tally } b := h.restore h.stores tally
  cases hlink : b.ledger.chats.get? id with
  | none =>
    rw [hlink] at hask hread
    rw [run_closeChat_of_none hask, run_closeChat_of_none hread]
    exact halike
  | some link =>
    rw [hlink] at hask hread
    rw [run_closeChat_of_some hask, run_closeChat_of_some hread]
    have hq : ∀ op, Question.closeChat link ≠ .store op := by simp
    exact (halike.handle hq).2

theorem agree_attachCall (s : Service) (h : Alike spent d b) (reference callId : String)
    (bridged : Bool) :
    (s.attachCall reference callId bridged).Agree spent (fun _ _ => True) d b := by
  refine (agree_resolve s h reference).bind fun id d b h _ => ?_
  refine (agree_fetchVisible h id).bind fun m d b h hfind => ?_
  by_cases hcall : m.callId.isSome
  · rw [if_pos hcall]
    exact agree_pure h trivial
  · rw [if_neg hcall]
    let f (m : Meeting) : Meeting := { m with callId := some callId, bridged }
    have hs : d.memory.setCall id callId bridged = (.ok (), d.memory.promote (f m)) :=
      Memory.modify_of_find? hfind f
    have hl := Ledger.modify_of_get? (h.stores.held hfind).2 f
    have hstore : (store (.setCall id callId bridged)).Agree spent
        (fun _ d => d.memory.find? id = some (f m)) d b := by
      refine agree_store (.setCall ..) h hs hl (h.stores.modify hfind rfl) fun _ _ => ?_
      obtain ⟨_, hid⟩ := Memory.find?_mem hfind
      exact (Memory.find?_promote (f m) id).trans (if_pos hid.symm)
    refine hstore.bind fun _ d b h hfind => ?_
    refine (agree_lift (alike_closeChat h hfind)).bind fun _ d b h _ => ?_
    exact agree_pure h trivial

theorem agree_failSubmission (h : Alike spent d b) {post : Unit → Deployment → Prop}
    (status : Metrics.Submission) (fault : Fault) :
    (Service.failSubmission status fault).Agree spent post d b :=
  agree_ask_bind h nofun agree_throw

theorem agree_submit (s : Service) (h : Alike spent d b) (token answer : String) :
    (s.submit token answer).Agree spent (fun _ _ => True) d b := by
  refine (agree_ofExcept _ h).bind fun value d b h _ => ?_
  refine (agree_redeem s h token).bind fun id d b h _ => ?_
  refine (agree_fetchVisible h id).bind fun m d b h hfind => ?_
  cases Service.surveyedCall m with
  | error reason => exact agree_failSubmission h _ _
  | ok callId =>
    refine agree_ask_bind h nofun fun h' => ?_
    generalize (d.handle (.setVariables m.domainId callId _)).1 = pushed
    cases pushed with
    | error fault => exact agree_failSubmission h' _ _
    | ok =>
      let f (m : Meeting) : Meeting := { m with satisfaction := some value }
      have hs : d.memory.setSatisfaction id value = (.ok (), d.memory.promote (f m)) :=
        Memory.modify_of_find? hfind f
      have hl := Ledger.modify_of_get? (h.stores.held hfind).2 f
      refine agree_ask_store_bind (.setSatisfaction id value) h' hs hl fun tally => ?_
      exact agree_count _ (h'.restore (h.stores.modify hfind rfl) tally)

theorem agree_drawIdentifier (h : Alike spent d b) :
    Service.drawIdentifier.Agree spent (fun id d' => d'.memory = d.memory ∧
      d'.entropy = { d.entropy with draws := d.entropy.draws + 1 } ∧
      ∃ octets, d.entropy.draw d.entropy.draws Meeting.Identifier.size = some octets ∧
        id = Meeting.Identifier.ofOctets octets) d b := by
  refine agree_ask_bind h nofun fun h' => ?_
  change Agree spent _ (match d.entropy.draw d.entropy.draws Meeting.Identifier.size with
    | some octets => _ | none => _) _ _
  cases d.entropy.draw d.entropy.draws Meeting.Identifier.size with
  | none => exact agree_throw h'
  | some octets => exact agree_pure h' ⟨rfl, rfl, octets, rfl, rfl⟩

theorem agree_issue (s : Service) (h : Alike spent d b) (id : String) :
    (s.issue id).Agree spent (fun _ d' => d'.memory = d.memory ∧
      ∃ nonce, d.entropy.draw d.entropy.draws Token.nonceLength = some nonce) d b := by
  refine agree_ask_bind h nofun fun h' => ?_
  change Agree spent _ (match d.entropy.draw d.entropy.draws Token.nonceLength with
    | some nonce => _ | none => _) _ _
  cases d.entropy.draw d.entropy.draws Token.nonceLength with
  | none => exact agree_throw h'
  | some nonce => exact agree_pure h' ⟨rfl, nonce, rfl⟩

theorem agree_store_create (h : Alike spent d b) {m : Meeting} (hfresh : m.id ∉ spent)
    (hroom : d.memory.size < d.memory.capacity) :
    (store (.create m)).Agree (m.id :: spent) (fun _ _ => True) d b := by
  obtain ⟨hfind, hm, hchat⟩ := h.stores.of_not_mem hfresh
  have hs : d.memory.create b.clock.now m = (.ok (), d.memory.push m) := by
    simp [Memory.create, hfind]
  have hl : b.ledger.create b.clock.now m =
      (.ok (), { b.ledger with meetings := b.ledger.meetings.insert m.id m }) := by
    simp [Ledger.create, hm]
  have hsub : spent ⊆ m.id :: spent := List.subset_cons_self _ _
  have hstores := (h.stores.mono hsub).create hroom List.mem_cons_self hchat
  exact agree_store (.create m) h hs hl hstores fun _ _ => trivial

theorem agree_create (s : Service) (h : Alike spent d b) (draft : Meeting.Draft)
    (hfresh : ∀ id, Command.newId? d.entropy (.create draft) = some id → id ∉ spent)
    (hroom : ∀ id, Command.newId? d.entropy (.create draft) = some id →
      d.memory.size < d.memory.capacity) :
    (s.create draft).Agree ((Command.newId? d.entropy (.create draft)).toList ++ spent)
      (fun _ _ => True) d b := by
  have hsub := List.subset_append_right (Command.newId? d.entropy (.create draft)).toList spent
  refine (agree_ofExcept _ h).bind_of_subset hsub fun tidy d₁ b₁ h₁ ⟨htidy, hd₁⟩ => ?_
  subst hd₁
  refine (agree_drawIdentifier h₁).bind_of_subset hsub
    fun id d₂ b₂ h₂ ⟨hmemory₂, hentropy, octets, hoctets, hid⟩ => ?_
  refine agree_ask_bind h₂ nofun fun h₃ => ?_
  refine (agree_issue s h₃ id).bind_of_subset hsub
    fun token d₄ b₄ h₄ ⟨hmemory₄, nonce, hnonce⟩ => ?_
  have hnonce : d₁.entropy.draw (d₁.entropy.draws + 1) Token.nonceLength = some nonce := by
    change d₂.entropy.draw d₂.entropy.draws Token.nonceLength = some nonce at hnonce
    rwa [hentropy] at hnonce
  have hnew : Command.newId? d₁.entropy (.create draft) = some id := by
    simp [Command.newId?, htidy, hoctets, hnonce, hid, Except.toOption]
  have hmemory : d₄.memory = d₁.memory := hmemory₄.trans hmemory₂
  have hroom₄ : d₄.memory.size < d₄.memory.capacity := by
    rw [hmemory]
    exact hroom id hnew
  rw [hnew]
  let m : Meeting :=
    .ofDraft tidy id (tidy.basePath ++ "/" ++ token) (d₂.handle .clock).1 s.defaultTtl
  have hid : m.id ∉ spent := hfresh id hnew
  refine (agree_store_create h₄ hid hroom₄).bind fun _ d₅ b₅ h₅ _ => ?_
  exact (agree_count _ h₅).bind fun _ d₆ b₆ h₆ _ => agree_pure h₆ trivial

theorem alike_sweep (h : Alike spent d b) (cutoff : Int64) :
    Alike spent ((Service.sweep cutoff).run Deployment.handle d).2
      ((Service.sweep cutoff).run Archive.handle b).2 := by
  obtain ⟨tally, hperform⟩ := h.perform (.deleteExpired cutoff)
  have hask : d.handle (.store (.deleteExpired cutoff)) =
      (.ok (d.memory.deleteExpired cutoff).1,
        { d with memory := (d.memory.deleteExpired cutoff).2, tally }) := hperform
  unfold Service.sweep Program.answer
  rw [Program.ask_bind, Program.run, Program.run, hask]
  exact h.restore (h.stores.deleteExpired cutoff) _

end Rendezvous
