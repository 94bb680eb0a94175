import Rendezvous.Store.Operation
/-!
Programs that ask questions of their surroundings, one at a time: the time, random octets, an
operation of the store, a call to a collaborator. Between two questions anything may happen outside,
so that a program is also the list of its steps. Main statement: programs are a monad.
-/
namespace Rendezvous

inductive Question where
  | clock
  /-- that many octets nobody can foretell -/
  | octets (n : Nat)
  | store (op : Store.Operation)
  | closeChat (link : ChatLink)
  | setVariables (domainId : Int64) (callId : String) (vars : Dictionary String)
  | count (event : Metrics.Event)
deriving DecidableEq

@[reducible] def Question.Answer : Question → Type
  | clock => Int64
  | octets n => Option (Vector UInt8 n)
  | store op => op.Answer
  | closeChat _ | setVariables .. => Except Fault Unit
  | count _ => Unit

inductive Program (α : Type) where
  | done (a : α)
  | ask (q : Question) (next : q.Answer → Program α)

namespace Program

variable {α β : Type}

def bind : Program α → (α → Program β) → Program β
  | done a, f => f a
  | ask q next, f => ask q fun answer => (next answer).bind f

instance : Monad Program where
  pure := done
  bind := bind

theorem ask_bind (q : Question) (next : q.Answer → Program α) (f : α → Program β) :
    ask q next >>= f = ask q fun answer => next answer >>= f := rfl

theorem bind_done (p : Program α) : p >>= done = p := by
  induction p with
  | done a => rfl
  | ask q next ih => rw [ask_bind]; exact congrArg (ask q) (funext ih)

theorem bind_bind {γ : Type} (p : Program α) (f : α → Program β) (g : β → Program γ) :
    (p >>= f) >>= g = p >>= fun a => f a >>= g := by
  induction p with
  | done a => rfl
  | ask q next ih => simp only [ask_bind]; exact congrArg (ask q) (funext ih)

instance : LawfulMonad Program :=
  LawfulMonad.mk' Program bind_done (fun _ _ => rfl) bind_bind

def answer (q : Question) : Program q.Answer := ask q done

/-- Runs a program to its end where each question changes the surroundings. -/
def run {σ : Type} (handle : σ → (q : Question) → q.Answer × σ) : Program α → σ → α × σ
  | done a, s => (a, s)
  | ask q next, s =>
    let (answer, s) := handle s q
    (next answer).run handle s

theorem run_bind {σ : Type} (handle : σ → (q : Question) → q.Answer × σ) (p : Program α)
    (f : α → Program β) (s : σ) :
    (p >>= f).run handle s = (f (p.run handle s).1).run handle (p.run handle s).2 := by
  induction p generalizing s with
  | done a => rfl
  | ask q next ih => simp only [ask_bind, run, ih]

end Program

abbrev Action (α : Type) := ExceptT Fault Program α

namespace Action

def ask (q : Question) : Action q.Answer :=
  ExceptT.mk (.ask q fun answer => .done (.ok answer))

def store (op : Store.Operation) : Action op.Value := ExceptT.mk (Program.answer (.store op))

def count (event : Metrics.Event) : Action Unit := ask (.count event)

def ofExcept {α : Type} (r : Except Fault α) : Action α := ExceptT.mk (pure r)

end Action

end Rendezvous
