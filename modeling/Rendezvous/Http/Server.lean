import Rendezvous.Http.Message
import Rendezvous.Http.Route
import Rendezvous.Meeting.Wire
import Rendezvous.Service.Health
import Rendezvous.Service.Lifecycle

namespace Rendezvous.Http

def answer {α : Type} (a : Action α) (response : α → Response) : Program Response := do
  match ← a.run with
  | .ok v => return response v
  | .error fault => return .ofFault fault

def accept {α : Type} (r : Except Refusal α) (next : α → Program Response) : Program Response :=
  match r with
  | .ok a => next a
  | .error refusal => pure refusal.response

def token (segment : String) : Except Refusal String :=
  match Text.Percent.decodeText? segment with
  | some token => .ok token
  | none => .error .path

def respond (s : Service) (r : Request) : Route → Program Response
  | .health => do return .json 200 (Health.record.json (← s.health))
  | .metrics => return .exposition
  | .meetings =>
    accept (r.record Meeting.Draft.record) fun draft =>
      answer (s.create draft) fun ticket => .json 201 (Meeting.Ticket.record.json ticket)
  | .meeting segment =>
    accept (token segment) fun token =>
      if r.method = "DELETE" then answer (s.delete token) fun _ => { status := 204 }
      else
        answer (s.get token) fun
          | some view => .json 200 (Meeting.View.record.json view)
          | none => .ofFault .notFound
  | .satisfaction segment =>
    accept (token segment) fun token =>
      accept (r.record Meeting.Survey.record) fun survey =>
        answer (s.submit token survey.answer) fun _ => { status := 204 }

/-- A request is refused for its path or its method first, then for its media type, its body and
last by the service. -/
def route (s : Service) (r : Request) : Program Response :=
  match Route.ofPath? r.path with
  | none => return { status := 404 }
  | some route =>
    if r.method ∈ route.methods then respond s r route
    else return { status := 405, allow := some (",".intercalate route.methods) }

def serve (s : Service) (r : Request) : Program Response := do
  let response ← route s r
  Program.answer (.count (.served r.method r.path response.status))
  return if r.method = "HEAD" then response.withoutBody else response

end Rendezvous.Http
