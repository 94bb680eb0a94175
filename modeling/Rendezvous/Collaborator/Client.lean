import Rendezvous.Collaborator.Url
import Rendezvous.Fault
import Rendezvous.Http.Reason
import Rendezvous.Json.Record
import Rendezvous.Meeting.Basic
import Rendezvous.Text.Blank
import Rendezvous.Text.Secret

namespace Rendezvous.Collaborator

structure Peer where
  name : String
  /-- the start of its addresses, without slashes at its end -/
  baseUrl : String
  serviceToken : Option Text.Secret

def Peer.chatService (baseUrl : String) (serviceToken : Option Text.Secret) : Peer :=
  ⟨"Chat service", Text.Blank.trimEnd '/' baseUrl, serviceToken⟩

def Peer.callEngine (baseUrl : String) (serviceToken : Option Text.Secret) : Peer :=
  ⟨"Call engine", Text.Blank.trimEnd '/' baseUrl, serviceToken⟩

structure Call where
  method : String
  path : String
  body : Json

def Call.closeChat (link : ChatLink) : Call where
  method := "POST"
  path := "/api/v1/conversations/" ++ link.conversationId ++ "/close"
  body := .object [("closer_channel_id", .string link.closerId),
    ("auth_user_id", .number (.ofInt64 link.authUserId)),
    ("cause", .string "meeting_call_finished")]

def Call.setVariables (domainId : Int64) (callId : String) (vars : Dictionary String) :
    Call where
  method := "PUT"
  path := "/api/v1/calls/" ++ callId ++ "/variables"
  body := .object [("domain_id", .number (.ofInt64 domainId)),
    ("variables", Json.Field.ofTexts vars)]

structure Request where
  method : String
  target : Url.Target
  authorization : Option String
  contentType : String := "application/json"
  body : Json

def isHeaderChar (c : Char) : Bool := c == '\t' || (' ' ≤ c && c != '\x7f')

/-- The request for a call, if the address is one and the token can be sent. -/
def Peer.request? (p : Peer) (c : Call) : Option Request := do
  let target ← Url.target? (p.baseUrl ++ c.path)
  if (p.serviceToken.map Text.Secret.reveal).all (·.toList.all isHeaderChar) then
    return {
      method := c.method
      target
      authorization := p.serviceToken.map fun token => "Bearer " ++ token.reveal
      body := c.body }
  else none

def Peer.unavailable (p : Peer) : Fault := .unavailable (p.name ++ " is unavailable")

def Peer.outcome (p : Peer) (status : Nat) : Except Fault Unit :=
  if 200 ≤ status ∧ status ≤ 299 then .ok ()
  else if 500 ≤ status ∧ status ≤ 599 then .error p.unavailable
  else if status = 404 then .error .notFound
  else .error (.internal (p.name ++ " rejected the request with " ++ Http.statusText status))

/-- Sends a call over a network that gives the status of the answer to a request, if there is one.
Tells what was sent and what became of it. -/
def Peer.send (p : Peer) (network : Request → Option Nat) (c : Call) :
    Option Request × Except Fault Unit :=
  match p.request? c with
  | none => (none, .error p.unavailable)
  | some request =>
    match network request with
    | none => (some request, .error p.unavailable)
    | some status => (some request, p.outcome status)

def withoutChatService : Except Fault Unit := .ok ()

def withoutCallEngine : Except Fault Unit :=
  .error (.unavailable "Call engine is not configured")

end Rendezvous.Collaborator
