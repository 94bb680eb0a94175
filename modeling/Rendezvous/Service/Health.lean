import Rendezvous.Json.Record
import Rendezvous.Service.Basic

namespace Rendezvous

structure Health where
  status : String
  backend : String
  store : Option String
deriving DecidableEq

open Json (Field) in
def Health.record : Json.Record Health where
  name := "HealthResponse"
  fields := [.text "status", .text "backend", .presentText "store"]
  ofValues := fun (status, backend, store, ()) => { status, backend, store }
  toValues h := (h.status, h.backend, h.store, ())

def Service.health (s : Service) : Program Health := do
  let status :=
    match ← Program.answer (.store .ping) with
    | .ok _ => "healthy"
    | .error _ => "unhealthy"
  return ⟨status, s.backend, some status⟩

end Rendezvous
