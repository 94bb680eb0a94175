import Mathlib.Tactic.Common
import Rendezvous.Program

namespace Rendezvous

structure Exchange where
  question : Question
  answer : question.Answer

namespace Program

variable {α β : Type} {warrant : List Exchange → Question → Prop} {past : List Exchange}

/-- Each question of a program is warranted by the exchanges before it, and `post` holds at the end,
whatever the answers are. The last exchange comes first. -/
def Ensures (warrant : List Exchange → Question → Prop) (post : List Exchange → α → Prop) :
    Program α → List Exchange → Prop
  | done a, past => post past a
  | ask q next, past =>
    warrant past q ∧ ∀ answer, (next answer).Ensures warrant post (⟨q, answer⟩ :: past)

theorem ensures_done {a : α} {post : List Exchange → α → Prop} :
    (done a).Ensures warrant post past ↔ post past a :=
  Iff.rfl

theorem ensures_ask {q : Question} {next : q.Answer → Program α} {post : List Exchange → α → Prop} :
    (ask q next).Ensures warrant post past ↔
      warrant past q ∧ ∀ answer, (next answer).Ensures warrant post (⟨q, answer⟩ :: past) :=
  Iff.rfl

theorem Ensures.mono {p : Program α} {post post' : List Exchange → α → Prop}
    (h : p.Ensures warrant post past) (hp : ∀ past a, post past a → post' past a) :
    p.Ensures warrant post' past := by
  induction p generalizing past with
  | done a => exact hp past a h
  | ask q next ih => exact ⟨h.1, fun answer => ih answer (h.2 answer)⟩

theorem Ensures.bind {p : Program α} {f : α → Program β} {post : List Exchange → β → Prop}
    (h : p.Ensures warrant (fun past a => (f a).Ensures warrant post past) past) :
    (p >>= f).Ensures warrant post past := by
  induction p generalizing past with
  | done a => exact h
  | ask q next ih => exact ⟨h.1, fun answer => ih answer (h.2 answer)⟩

theorem ensures_answer {q : Question} {post : List Exchange → q.Answer → Prop}
    (hw : warrant past q) (h : ∀ answer, post (⟨q, answer⟩ :: past) answer) :
    (answer q).Ensures warrant post past :=
  ⟨hw, h⟩

/-- What a program has become after some exchanges, of which the last one comes first. -/
inductive Follows (p : Program α) : List Exchange → Program α → Prop where
  | start : Follows p [] p
  | answer {past : List Exchange} {q : Question} {next : q.Answer → Program α}
      (h : Follows p past (ask q next)) (answer : q.Answer) :
      Follows p (⟨q, answer⟩ :: past) (next answer)

theorem Follows.ensures {p p' : Program α} {post : List Exchange → α → Prop}
    (h : p.Follows past p') (hp : p.Ensures warrant post []) : p'.Ensures warrant post past := by
  induction h with
  | start => exact hp
  | answer _ answer ih => exact ih.2 answer

theorem follows_nil {p p' : Program α} (h : p.Follows [] p') : p' = p := by
  cases h
  rfl

theorem follows_cons {p p' : Program α} {e : Exchange} (h : p.Follows (e :: past) p') :
    ∃ next, p.Follows past (ask e.question next) ∧ p' = next e.answer := by
  cases h with
  | answer h answer => exact ⟨_, h, rfl⟩

end Program

namespace Action

variable {α β : Type} {warrant : List Exchange → Question → Prop} {past : List Exchange}

/-- Each question of an action is warranted by the exchanges before it, and `good` holds of what it
gives, if it does not fail. -/
def Gives (warrant : List Exchange → Question → Prop) (good : List Exchange → α → Prop)
    (a : Action α) (past : List Exchange) : Prop :=
  a.run.Ensures warrant (fun past r => ∀ v, r = .ok v → good past v) past

theorem Gives.ensures {a : Action α} {good : List Exchange → α → Prop}
    (h : a.Gives warrant good past) :
    a.run.Ensures warrant (fun past r => ∀ v, r = .ok v → good past v) past :=
  h

theorem Gives.bind {a : Action α} {f : α → Action β} {middle : List Exchange → α → Prop}
    {good : List Exchange → β → Prop} (h : a.Gives warrant middle past)
    (hf : ∀ past v, middle past v → (f v).Gives warrant good past) :
    (a >>= f).Gives warrant good past := by
  rw [Gives, ExceptT.run_bind]
  refine Program.Ensures.bind (Program.Ensures.mono h fun past r hr => ?_)
  cases r with
  | ok v => exact hf past v (hr v rfl)
  | error fault => exact fun v hv => nomatch hv

theorem gives_ask {q : Question} {good : List Exchange → q.Answer → Prop} (hw : warrant past q)
    (h : ∀ answer, good (⟨q, answer⟩ :: past) answer) : (ask q).Gives warrant good past :=
  ⟨hw, fun answer _ hv => Except.ok.inj hv ▸ h answer⟩

theorem gives_ask_bind {q : Question} {f : q.Answer → Action β} {good : List Exchange → β → Prop}
    (hw : warrant past q) (h : ∀ answer, (f answer).Gives warrant good (⟨q, answer⟩ :: past)) :
    (ask q >>= f).Gives warrant good past := by
  have hq : (ask q).Gives warrant (fun past' v => past' = ⟨q, v⟩ :: past) past :=
    gives_ask hw fun _ => rfl
  exact hq.bind fun past' v hpast => hpast ▸ h v

theorem gives_store {op : Store.Operation} {good : List Exchange → op.Value → Prop}
    (hw : warrant past (.store op)) (h : ∀ v, good (⟨.store op, .ok v⟩ :: past) v) :
    (store op).Gives warrant good past :=
  ⟨hw, fun _ _ hv => hv ▸ h _⟩

theorem gives_store_bind {op : Store.Operation} {f : op.Value → Action β}
    {good : List Exchange → β → Prop} (hw : warrant past (.store op))
    (h : ∀ v, (f v).Gives warrant good (⟨.store op, .ok v⟩ :: past)) :
    (store op >>= f).Gives warrant good past := by
  have hq : (store op).Gives warrant (fun past' v => past' = ⟨.store op, .ok v⟩ :: past) past :=
    gives_store hw fun _ => rfl
  exact hq.bind fun past' v hpast => hpast ▸ h v

theorem gives_pure {v : α} {good : List Exchange → α → Prop} (h : good past v) :
    (pure v : Action α).Gives warrant good past :=
  fun _ hv => Except.ok.inj hv ▸ h

theorem gives_throw {fault : Fault} {good : List Exchange → α → Prop} :
    (throw fault : Action α).Gives warrant good past :=
  fun _ hv => nomatch hv

theorem gives_ofExcept_bind {r : Except Fault α} {f : α → Action β}
    {good : List Exchange → β → Prop} (h : ∀ v, r = .ok v → (f v).Gives warrant good past) :
    (ofExcept r >>= f).Gives warrant good past := by
  have hr : (ofExcept r).Gives warrant (fun past' v => past' = past ∧ r = .ok v) past :=
    fun v hv => ⟨rfl, hv⟩
  exact hr.bind fun past' v hv => hv.1 ▸ h v hv.2

theorem gives_lift {p : Program α} {good : List Exchange → α → Prop}
    (h : p.Ensures warrant good past) : Gives warrant good (ExceptT.lift p) past := by
  rw [Gives, ExceptT.run_lift]
  exact Program.Ensures.bind (h.mono fun _ _ hg => gives_pure hg)

theorem gives_tryCatch {a : Action α} {f : Fault → Action α} {good : List Exchange → α → Prop}
    (h : a.Gives warrant good past) (hf : ∀ past fault, (f fault).Gives warrant good past) :
    (tryCatch a f).Gives warrant good past := by
  refine Program.Ensures.bind (Program.Ensures.mono h fun past r hr => ?_)
  cases r with
  | ok v => exact gives_pure (hr v rfl)
  | error fault => exact hf past fault

end Action

-- the rules above are all that is used of them: unfolding them would run the program
attribute [irreducible] Program.Ensures Action.Gives

end Rendezvous
