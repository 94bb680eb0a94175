import Rendezvous.Fault

namespace Rendezvous.Store

inductive DatabaseFault where
  | refused (detail : String) (code : Option String)
  | rowNotFound
  | poolTimedOut
  | poolClosed
  | columnNotFound (name : String)
  | protocol (detail : String)
deriving DecidableEq, Repr

namespace DatabaseFault

def message : DatabaseFault → String
  | refused detail _ => "error returned from database: " ++ detail
  | rowNotFound => "no rows returned by a query that expected to return at least one row"
  | poolTimedOut => "pool timed out while waiting for an open connection"
  | poolClosed => "attempted to acquire a connection on a closed pool"
  | columnNotFound name => "no column found for name: " ++ name
  | protocol detail => "encountered unexpected or invalid data: " ++ detail

def uniqueViolation : String := "23505"

def fault (f : DatabaseFault) : Fault :=
  match f with
  | refused _ (some code) => if code = uniqueViolation then .alreadyExists else .database f.message
  | _ => .database f.message

end DatabaseFault

end Rendezvous.Store
