import Rendezvous.Metrics.Event
import Rendezvous.Store.Memory

namespace Rendezvous.Store

inductive Kind where
  | create
  | get
  | delete
  | setCall
  | setSatisfaction
  | deleteExpired
  | chatLink
  | ping
deriving DecidableEq, Repr

def Kind.label : Kind → String
  | create => "create"
  | get => "get"
  | delete => "delete"
  | setCall => "set_call"
  | setSatisfaction => "set_satisfaction"
  | deleteExpired => "delete_expired"
  | chatLink => "get_chat_close_info"
  | ping => "ping"

inductive Operation where
  | create (m : Meeting)
  | get (id : String)
  | delete (id : String)
  | setCall (id callId : String) (bridged : Bool)
  | setSatisfaction (id value : String)
  | deleteExpired (now : Int64)
  | chatLink (id : String)
  | ping
deriving DecidableEq

namespace Operation

def kind : Operation → Kind
  | create _ => .create
  | get _ => .get
  | delete _ => .delete
  | setCall .. => .setCall
  | setSatisfaction .. => .setSatisfaction
  | deleteExpired _ => .deleteExpired
  | chatLink _ => .chatLink
  | ping => .ping

@[reducible] def Value : Operation → Type
  | create _ | delete _ | setCall .. | setSatisfaction .. | ping => Unit
  | get _ => Meeting
  | deleteExpired _ => Nat
  | chatLink _ => Option ChatLink

abbrev Answer (op : Operation) : Type := Except Fault op.Value

/-- Whether an answer counts as a success: so does that there is no such meeting. -/
def succeeded {op : Operation} : op.Answer → Bool
  | .ok _ => true
  | .error f => f = .notFound

/-- The event of an operation that reached a store. Nothing is counted for a ping. -/
def event? (backend : String) (op : Operation) (answer : op.Answer) : Option Metrics.Event :=
  if op.kind = .ping then none else some (.stored backend op.kind.label (succeeded answer))

end Operation

def Memory.backend : String := "memory"

def Memory.perform (s : Memory) (now : Int64) : (op : Operation) → op.Answer × Memory
  | .create m => s.create now m
  | .get id => s.get now id
  | .delete id => s.delete id
  | .setCall id callId bridged => s.setCall id callId bridged
  | .setSatisfaction id value => s.setSatisfaction id value
  | .deleteExpired cutoff =>
    let (count, s) := s.deleteExpired cutoff
    (.ok count, s)
  | .chatLink id => (.ok (s.chatLink? id), s)
  | .ping => (.ok (), s)

end Rendezvous.Store
