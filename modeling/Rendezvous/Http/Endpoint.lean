namespace Rendezvous.Http

inductive Endpoint where
  | meetings
  | health
  | metrics
  | meeting
  | satisfaction
  | other
deriving DecidableEq, Repr

namespace Endpoint

def label : Endpoint → String
  | meetings => "/v1/meetings"
  | health => "/v1/health"
  | metrics => "/metrics"
  | meeting => "/v1/meetings/\x7btoken\x7d"
  | satisfaction => "/v1/meetings/\x7btoken\x7d/satisfaction"
  | other => "/other"

def after? (front : String) (cs : List Char) : Option (List Char) :=
  if front.toList.isPrefixOf cs then some (cs.drop front.toList.length) else none

/-- The endpoint of the characters after `/v1/meetings/`: of a token, or of a token and its
survey. -/
def ofToken (cs : List Char) : Endpoint :=
  match cs.span (· != '/') with
  | (_ :: _, []) => meeting
  | (_ :: _, '/' :: rest) => if rest = "satisfaction".toList then satisfaction else other
  | _ => other

def ofPath (path : String) : Endpoint :=
  if path = meetings.label then meetings
  else if path = health.label then health
  else if path = metrics.label then metrics
  else
    match after? "/v1/meetings/" path.toList with
    | some rest => ofToken rest
    | none => other

end Endpoint

end Rendezvous.Http
