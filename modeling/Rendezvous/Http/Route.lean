import Rendezvous.Text.Percent

namespace Rendezvous.Http

inductive Route where
  | health
  | metrics
  | meetings
  | meeting (segment : String)
  | satisfaction (segment : String)
deriving DecidableEq, Repr

namespace Route

def segments (path : String) : List (List Char) := path.toList.splitOn '/'

/-- The route of a path. A token is not empty; only where the survey follows it is it left to the
service to refuse an empty one. -/
def ofPath? (path : String) : Option Route :=
  match (segments path).map String.ofList with
  | ["", "v1", "health"] => some health
  | ["", "metrics"] => some metrics
  | ["", "v1", "meetings"] => some meetings
  | ["", "v1", "meetings", token] => if token = "" then none else some (meeting token)
  | ["", "v1", "meetings", token, "satisfaction"] => some (satisfaction token)
  | _ => none

/-- The methods that a route takes. What it gives, it also gives without the body. -/
def methods : Route → List String
  | health | metrics => ["GET", "HEAD"]
  | meetings | satisfaction _ => ["POST"]
  | meeting _ => ["GET", "HEAD", "DELETE"]

end Route

end Rendezvous.Http
