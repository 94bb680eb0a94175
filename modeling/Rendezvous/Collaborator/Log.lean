import Rendezvous.Fault

namespace Rendezvous

inductive Collaborator (α : Type) where
  | absent (answer : Except Fault Unit)
  /-- with the answer to the call of each number, and the calls so far, the first one first -/
  | present (answer : Nat → Except Fault Unit) (calls : List (α × Except Fault Unit))

namespace Collaborator

variable {α : Type}

def accepting : Collaborator α := present (fun _ => .ok ()) []

def failing (fault : Fault) : Collaborator α := present (fun _ => .error fault) []

def call (c : Collaborator α) (a : α) : Except Fault Unit × Collaborator α :=
  match c with
  | absent answer => (answer, c)
  | present answer calls =>
    let result := answer calls.length
    (result, present answer (calls ++ [(a, result)]))

def calls : Collaborator α → List (α × Except Fault Unit)
  | absent _ => []
  | present _ calls => calls

def accepted (c : Collaborator α) : List α :=
  c.calls.filterMap fun
    | (a, .ok ()) => some a
    | (_, .error _) => none

end Collaborator

end Rendezvous
