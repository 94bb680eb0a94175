namespace Rendezvous.Call

inductive Outcome where
  | linked
  | alreadyLinked
  /-- the event names no meeting -/
  | skipped
  | unparseable
  | failed
deriving DecidableEq, Repr

def Outcome.label : Outcome → String
  | linked => "linked"
  | alreadyLinked => "already_linked"
  | skipped => "skipped"
  | unparseable => "unparseable"
  | failed => "failed"

end Rendezvous.Call
