namespace Rendezvous

inductive Fault where
  | invalidToken
  | notFound
  | alreadyExists
  | notAllowed (reason : String)
  | expired
  | badRequest (reason : String)
  | database (detail : String)
  | unavailable (detail : String)
  | internal (detail : String)
deriving DecidableEq, Repr

namespace Fault

def message : Fault → String
  | invalidToken => "Invalid token"
  | notFound => "Meeting not found"
  | alreadyExists => "Meeting already exists"
  | notAllowed reason => "Not allowed: " ++ reason
  | expired => "Meeting expired"
  | badRequest reason => "Bad request: " ++ reason
  | database detail => "Database error: " ++ detail
  | unavailable detail => "Service unavailable: " ++ detail
  | internal detail => "Internal error: " ++ detail

def status : Fault → Nat
  | invalidToken => 401
  | notFound | expired => 404
  | alreadyExists => 409
  | notAllowed _ => 403
  | badRequest _ => 400
  | unavailable _ => 503
  | database _ | internal _ => 500

/-- The code in the answer. An expired meeting answers as a missing one. -/
def code : Fault → String
  | invalidToken => "INVALID_TOKEN"
  | notFound | expired => "NOT_FOUND"
  | alreadyExists => "ALREADY_EXISTS"
  | notAllowed _ => "NOT_ALLOWED"
  | badRequest _ => "BAD_REQUEST"
  | database _ => "DATABASE_ERROR"
  | unavailable _ => "SERVICE_UNAVAILABLE"
  | internal _ => "INTERNAL_ERROR"

/-- What the caller is told: reasons that concern the request, but no detail of the inside. -/
def publicMessage : Fault → String
  | invalidToken => "The meeting token is invalid"
  | notFound | expired => "Meeting not found"
  | alreadyExists => "Meeting already exists"
  | notAllowed reason | badRequest reason => reason
  | database _ => "An internal database error occurred"
  | unavailable _ => "A dependent service is unavailable"
  | internal _ => "An internal error occurred"

end Fault

end Rendezvous
