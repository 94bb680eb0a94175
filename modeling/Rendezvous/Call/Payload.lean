import Rendezvous.Json.Value

namespace Rendezvous.Call

def endedData (meeting : String) : Json :=
  .object [("cause", .string "NORMAL_CLEARING"), ("meeting_id", .string meeting)]

/-- The payload of a call that ended as usual. -/
def endedPayload (callId meeting : String) (bridgedAt : Int64) : Json :=
  .object [("app_id", .string "call-engine"), ("bridged_at", .number (.ofInt64 bridgedAt)),
    ("data", .string (endedData meeting).text), ("id", .string callId)]

end Rendezvous.Call
