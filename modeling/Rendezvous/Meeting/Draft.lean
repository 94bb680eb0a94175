import Rendezvous.Fault
import Rendezvous.Json.Record
import Rendezvous.Meeting.Basic
import Rendezvous.Text.Blank

namespace Rendezvous.Meeting

open Json (Field Record)

def maxTitleLength : Nat := 512

def maxAnswerLength : Nat := 64

structure Draft where
  domainId : Int64
  title : String
  /-- how long it is to live, in seconds; not positive for the default -/
  ttl : Int64
  basePath : String
  metadata : Dictionary String
deriving DecidableEq

def Draft.record : Record Draft where
  name := "CreateMeetingRequest"
  fields := [.integer "domain_id", .text "title", .integerOr "expire_sec" 0, .text "base_path",
    .textsOr "variables" .empty]
  ofValues := fun (domainId, title, ttl, basePath, metadata, ()) =>
    { domainId, title, ttl, basePath, metadata }
  toValues d := (d.domainId, d.title, d.ttl, d.basePath, d.metadata, ())

/-- A text without blanks around it that is neither empty nor too long; `what` names it. -/
def tidyText (what : String) (maxLength : Nat) (s : String) : Except Fault String :=
  let s := Text.Blank.trim s
  if s = "" then .error (.badRequest (what ++ " is required"))
  else if maxLength < s.length then
    .error (.badRequest (what ++ " must be at most " ++ Numeral.Decimal.text maxLength ++
      " characters"))
  else .ok s

def tidyBasePath (s : String) : Except Fault String :=
  let s := Text.Blank.trimEnd '/' (Text.Blank.trim s)
  if s = "" then .error (.badRequest "base_path is required") else .ok s

def Draft.tidy (d : Draft) : Except Fault Draft := do
  let title ← tidyText "title" maxTitleLength d.title
  let basePath ← tidyBasePath d.basePath
  return { d with title, basePath }

def tidyAnswer (s : String) : Except Fault String := tidyText "satisfaction" maxAnswerLength s

def ofDraft (d : Draft) (id url : String) (now defaultTtl : Int64) : Meeting where
  id := id
  domainId := d.domainId
  title := d.title
  createdAt := now
  expiresAt := expiry now d.ttl defaultTtl
  metadata := d.metadata
  url := url
  callId := none
  bridged := false
  satisfaction := none

structure Ticket where
  token : String
  url : String
deriving DecidableEq

def Ticket.record : Record Ticket where
  name := "CreateMeetingResponse"
  fields := [.text "id", .text "url"]
  ofValues := fun (token, url, ()) => { token, url }
  toValues t := (t.token, t.url, ())

structure Survey where
  answer : String
deriving DecidableEq

def Survey.record : Record Survey where
  name := "SatisfactionRequest"
  fields := [.text "satisfaction"]
  ofValues := fun (answer, ()) => { answer }
  toValues s := (s.answer, ())

end Rendezvous.Meeting
