import Rendezvous.Collaborator.Client
import Rendezvous.Collaborator.Log

namespace Rendezvous

def Fault.isRefusal : Fault → Bool
  | invalidToken | notAllowed _ => true
  | _ => false

namespace Collaborator

variable {p : Peer} {network : Request → Option Nat} {c : Call} {fault : Fault}

inductive Peer.Failure (p : Peer) (network : Request → Option Nat) (c : Call) : Fault → Prop where
  /-- It cannot be sent, is not answered, or the peer has failed itself. -/
  | unavailable : Failure p network c p.unavailable
  | missing {request : Request} (sent : p.request? c = some request)
      (answered : network request = some 404) : Failure p network c .notFound
  | refused (detail : String) : Failure p network c (.internal detail)

theorem Peer.outcome_of_404 (p : Peer) : p.outcome 404 = .error .notFound := by
  simp [outcome]

theorem Peer.failure_of_send (h : (p.send network c).2 = .error fault) :
    p.Failure network c fault := by
  unfold send at h
  cases hrequest : p.request? c with
  | none =>
    rw [hrequest] at h
    cases h
    exact .unavailable
  | some request =>
    rw [hrequest] at h
    cases hstatus : network request with
    | none =>
      simp only [hstatus] at h
      cases h
      exact .unavailable
    | some status =>
      simp only [hstatus, outcome] at h
      by_cases hok : 200 ≤ status ∧ status ≤ 299
      · rw [if_pos hok] at h
        cases h
      rw [if_neg hok] at h
      by_cases hfailed : 500 ≤ status ∧ status ≤ 599
      · rw [if_pos hfailed] at h
        cases h
        exact .unavailable
      rw [if_neg hfailed] at h
      by_cases hmissing : status = 404
      · rw [if_pos hmissing] at h
        cases h
        exact .missing hrequest (hmissing ▸ hstatus)
      · rw [if_neg hmissing] at h
        cases h
        exact .refused _

theorem Peer.send_eq_notFound_iff : (p.send network c).2 = .error .notFound ↔
    ∃ request, p.request? c = some request ∧ network request = some 404 := by
  constructor
  · intro h
    cases Peer.failure_of_send h with
    | missing sent answered => exact ⟨_, sent, answered⟩
  · rintro ⟨request, sent, answered⟩
    simp only [send, sent, answered, outcome_of_404]

theorem Peer.send_ne_expired : (p.send network c).2 ≠ .error .expired :=
  fun h => nomatch Peer.failure_of_send h

/-- What the service is told by a collaborator: of a call over HTTP what became of it, and by one
that is not there, always the same. -/
inductive Told : Except Fault Unit → Prop where
  | accepted : Told (.ok ())
  | unavailable (detail : String) : Told (.error (.unavailable detail))
  | sent (p : Peer) (network : Request → Option Nat) (c : Call) : Told (p.send network c).2

theorem Told.not_refusal {r : Except Fault Unit} (h : Told r) {fault : Fault}
    (hr : r = .error fault) : fault.isRefusal = false := by
  cases h with
  | accepted => cases hr
  | unavailable detail =>
    cases hr
    rfl
  | sent p network c =>
    cases Peer.failure_of_send hr with
    | unavailable | missing | refused => rfl

def Genuine {α : Type} : Collaborator α → Prop
  | absent answer => Told answer
  | present answer _ => ∀ n, Told (answer n)

theorem Genuine.call {α : Type} {c : Collaborator α} (h : c.Genuine) (a : α) :
    Told (c.call a).1 ∧ (c.call a).2.Genuine := by
  cases c with
  | absent answer => exact ⟨h, h⟩
  | present answer calls => exact ⟨h _, h⟩

end Collaborator

end Rendezvous
