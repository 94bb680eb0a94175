import Rendezvous.Json.Record
import Rendezvous.Meeting.Basic

namespace Rendezvous

open Json (Field Record)

/-- A stored meeting: what it lacks is written as null. -/
def Meeting.record : Record Meeting where
  name := "Meeting"
  fields := [.text "id", .integer "domain_id", .text "title", .integer "created_at",
    .integer "expires_at", .texts "variables", .text "url", .optionalText "call_id",
    .boolean "bridged", .optionalText "satisfaction"]
  ofValues := fun (id, domainId, title, createdAt, expiresAt, metadata, url, callId, bridged,
      satisfaction, ()) =>
    { id, domainId, title, createdAt, expiresAt, metadata, url, callId, bridged, satisfaction }
  toValues m := (m.id, m.domainId, m.title, m.createdAt, m.expiresAt, m.metadata, m.url, m.callId,
    m.bridged, m.satisfaction, ())

/-- A view: what it lacks is left out. -/
def Meeting.View.record : Record Meeting.View where
  name := "MeetingView"
  fields := [.text "id", .integer "domain_id", .text "title", .integer "created_at",
    .integer "expires_at", .texts "variables", .text "url", .presentText "call_id",
    .boolean "bridged", .presentText "satisfaction", .boolean "allow_satisfaction"]
  ofValues := fun (id, domainId, title, createdAt, expiresAt, metadata, url, callId, bridged,
      satisfaction, allowSatisfaction, ()) =>
    { id, domainId, title, createdAt, expiresAt, metadata, url, callId, bridged, satisfaction,
      allowSatisfaction }
  toValues v := (v.id, v.domainId, v.title, v.createdAt, v.expiresAt, v.metadata, v.url, v.callId,
    v.bridged, v.satisfaction, v.allowSatisfaction, ())

def ChatLink.record : Record ChatLink where
  name := "ChatCloseInfo"
  fields := [.text "conversation_id", .text "closer_id", .integer "auth_user_id"]
  ofValues := fun (conversationId, closerId, authUserId, ()) =>
    { conversationId, closerId, authUserId }
  toValues l := (l.conversationId, l.closerId, l.authUserId, ())

end Rendezvous
