import Rendezvous.Json.Record
import Rendezvous.Text.Blank

namespace Rendezvous.Call

open Json (Field Record Reader)

structure HangupData where
  cause : Option String
  /-- the token or the identifier of the meeting of the call -/
  meetingId : Option String
deriving DecidableEq, Repr

def HangupData.none : HangupData := ⟨.none, .none⟩

def HangupData.record : Record HangupData where
  name := "HangupData"
  fields := [.trailingText "cause", .trailingText "meeting_id"]
  ofValues := fun (cause, meetingId, ()) => { cause, meetingId }
  toValues d := (d.cause, d.meetingId, ())

def found : Json → Json.Found
  | .null => .null
  | .boolean b => .boolean b
  | .number n => .number n
  | .string s => .string s
  | .array _ => .sequence
  | .object _ => .map

def optionalTextOf : Json → Except Json.Fault (Option String)
  | .null => .ok .none
  | .string s => .ok (some s)
  | v => .error (.invalidType (found v) "a string")

def HangupData.takeMembers (d : HangupData) : List (String × Json) → Except Json.Fault HangupData
  | [] => .ok d
  | (key, v) :: ms =>
    if key = "cause" then
      (optionalTextOf v).bind fun cause => takeMembers { d with cause } ms
    else if key = "meeting_id" then
      (optionalTextOf v).bind fun meetingId => takeMembers { d with meetingId } ms
    else takeMembers d ms

def HangupData.ofJson : Json → Except Json.Fault HangupData
  | .object ms => HangupData.none.takeMembers ms
  | .array vs => do
    let cause ← optionalTextOf (vs.getD 0 .null)
    let meetingId ← optionalTextOf (vs.getD 1 .null)
    if vs.length ≤ 2 then .ok ⟨cause, meetingId⟩
    else .error (.invalidLength vs.length "fewer elements in array")
  | v => .error (.invalidType (found v) HangupData.record.title)

/-- The details held by the value of an event's `data`. Null and a blank text hold none. -/
def HangupData.ofData : Json → Except Json.Fault HangupData
  | .null => .ok .none
  | .string s =>
    if s.toList.all Text.Blank.isBlank then .ok .none
    else
      (HangupData.record.decode (Text.Utf8.encode s)).mapError fun f =>
        .inside "failed to parse nested data JSON" f.fault
  | v => (HangupData.ofJson v).mapError (.inside "failed to parse data object")

def HangupData.read : Reader HangupData := fun levels bs =>
  (Reader.value levels bs).bind fun (v, rest) =>
    ((HangupData.ofData v).map (·, rest)).mapError .here

structure Hangup where
  id : String
  appId : String
  /-- when the call connected, in milliseconds; not positive if it never did -/
  bridgedAt : Int64
  data : HangupData
deriving DecidableEq, Repr

namespace Hangup

def dataField : Field :=
  ⟨HangupData, "data", HangupData.read, fun d => some (HangupData.record.json d), some .none,
    some .none⟩

def record : Record Hangup where
  name := "CallHangupEvent"
  fields := [.text "id", .textOr "app_id" "", .integerOr "bridged_at" 0, dataField]
  ofValues := fun (id, appId, bridgedAt, data, ()) => { id, appId, bridgedAt, data }
  toValues h := (h.id, h.appId, h.bridgedAt, h.data, ())

def ofPayload (payload : List UInt8) : Except Json.Failure Hangup := record.decode payload

def bridged (h : Hangup) : Bool := 0 < h.bridgedAt

end Hangup

end Rendezvous.Call
