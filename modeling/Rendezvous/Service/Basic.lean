import Rendezvous.Meeting.Identifier
import Rendezvous.Program
import Rendezvous.Token.Basic

namespace Rendezvous

structure Service where
  cipher : Token.Cipher
  backend : String
  defaultTtl : Int64 := Meeting.defaultTtl

namespace Service

def reject {α : Type} : Token.Fault → Action α
  | .malformed _ => do
    Action.count (.tokenRejected .malformed)
    throw .invalidToken
  | .invalid => do
    Action.count (.tokenRejected .invalid)
    throw .invalidToken
  | .noEntropy => throw (.internal "Token cipher failure")

def redeem (s : Service) (token : String) : Action String :=
  match s.cipher.redeem token with
  | .ok id => pure id
  | .error fault => reject fault

/-- The identifier that a reference to a meeting means: the one behind it if it is a token, or else
itself if it has the shape of an identifier. -/
def resolve (s : Service) (reference : String) : Action String :=
  match s.cipher.redeem reference with
  | .ok id => pure id
  | .error fault =>
    if Meeting.Identifier.isIdentifier reference then pure reference else reject fault

def fetchVisible (id : String) : Action Meeting := do
  let meeting ← Action.store (.get id)
  let now ← Action.ask .clock
  if meeting.isVisibleAt now then return meeting else throw .expired

def drawIdentifier : Action String := do
  match ← Action.ask (.octets Meeting.Identifier.size) with
  | some octets => return Meeting.Identifier.ofOctets octets
  | none => throw (.internal "Meeting id generation failed")

def issue (s : Service) (id : String) : Action String := do
  match ← Action.ask (.octets Token.nonceLength) with
  | some nonce => return s.cipher.issue nonce id
  | none => throw (.internal "Failed to issue meeting token")

end Service

end Rendezvous
