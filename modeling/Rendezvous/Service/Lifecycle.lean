import Rendezvous.Meeting.Draft
import Rendezvous.Service.Basic

namespace Rendezvous.Service

def create (s : Service) (draft : Meeting.Draft) : Action Meeting.Ticket := do
  let draft ← Action.ofExcept draft.tidy
  let id ← drawIdentifier
  let now ← Action.ask .clock
  let token ← s.issue id
  let url := draft.basePath ++ "/" ++ token
  Action.store (.create (.ofDraft draft id url now s.defaultTtl))
  Action.count .meetingCreated
  return ⟨token, url⟩

/-- What the holder of a token sees of its meeting; nothing once the meeting is gone. -/
def get (s : Service) (token : String) : Action (Option Meeting.View) := do
  let id ← s.redeem token
  tryCatch (return some ((← fetchVisible id).view token)) fun
    | .notFound | .expired => return none
    | fault => throw fault

def delete (s : Service) (token : String) : Action Unit := do
  let id ← s.redeem token
  Action.store (.delete id)

inductive CallLink where
  | linked (id : String)
  | alreadyLinked (id : String)
deriving DecidableEq, Repr

/-- Closes the open chat of a meeting, if it has one. Failures have no consequence. -/
def closeChat (id : String) : Program Unit := do
  match ← Program.answer (.store (.chatLink id)) with
  | .ok (some link) =>
    let _ ← Program.answer (.closeChat link)
    return ()
  | _ => return ()

/-- Notes that a call was held in the meeting that a reference means, unless one is noted already,
and closes the chat of the meeting. -/
def attachCall (s : Service) (reference callId : String) (bridged : Bool) : Action CallLink := do
  let id ← s.resolve reference
  let meeting ← fetchVisible id
  if meeting.callId.isSome then return .alreadyLinked id
  Action.store (.setCall id callId bridged)
  ExceptT.lift (closeChat id)
  return .linked id

def answerVariable : String := "meeting_satisfaction"

def surveyedCall (m : Meeting) : Except String String :=
  match m.callId, m.satisfaction with
  | _, some _ => .error "satisfaction already recorded"
  | some callId, none => if m.bridged then .ok callId else .error "no bridged call for this meeting"
  | none, none => .error "no bridged call for this meeting"

def failSubmission {α : Type} (status : Metrics.Submission) (fault : Fault) : Action α := do
  Action.count (.surveyAnswered status)
  throw fault

/-- Takes the answer to the survey. It goes to the call engine first and is noted only if that has
accepted it. -/
def submit (s : Service) (token answer : String) : Action Unit := do
  let answer ← Action.ofExcept (Meeting.tidyAnswer answer)
  let id ← s.redeem token
  let meeting ← fetchVisible id
  match surveyedCall meeting with
  | .error reason => failSubmission .notAllowed (.notAllowed reason)
  | .ok callId =>
    match ← Action.ask (.setVariables meeting.domainId callId (.single answerVariable answer)) with
    | .error fault => failSubmission .error fault
    | .ok () =>
      match ← Action.ask (.store (.setSatisfaction id answer)) with
      | .error fault => failSubmission .error fault
      | .ok () => Action.count (.surveyAnswered .success)

end Rendezvous.Service
