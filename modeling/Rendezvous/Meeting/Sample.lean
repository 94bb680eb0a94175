import Rendezvous.Meeting.Basic
import Rendezvous.Meeting.Identifier

namespace Rendezvous.Meeting.Sample

def identifier (seed : Nat) : String :=
  String.ofList ((List.range Identifier.size).map fun i => Identifier.symbol ((seed + 7 * i) % 64))

def now : Int64 := 1704067200

def ofSeed (seed : Nat) : Meeting where
  id := identifier seed
  domainId := 1
  title := "Test meeting"
  createdAt := now
  expiresAt := now + 3600
  metadata := .empty
  url := "https://meet.example.com/m/" ++ identifier seed
  callId := none
  bridged := false
  satisfaction := none

inductive Change where
  | domain (id : Int64)
  | title (text : String)
  | createdAt (time : Int64)
  | ttl (seconds : Int64)
  | entry (key value : String)
  | call (id : String) (bridged : Bool)
  | satisfaction (value : String)

def Change.apply (m : Meeting) : Change → Meeting
  | .domain domainId => { m with domainId }
  | .title text => { m with title := text }
  | .createdAt time =>
    { m with createdAt := time, expiresAt := time + (m.expiresAt - m.createdAt) }
  | .ttl seconds => { m with expiresAt := m.createdAt + seconds }
  | .entry key value => { m with metadata := m.metadata.insert key value }
  | .call id bridged => { m with callId := some id, bridged }
  | .satisfaction value => { m with satisfaction := some value }

end Rendezvous.Meeting.Sample
