import Rendezvous.Dictionary

namespace Rendezvous

structure Meeting where
  /-- the internal identifier, which callers never see -/
  id : String
  domainId : Int64
  title : String
  createdAt : Int64
  expiresAt : Int64
  metadata : Dictionary String
  /-- the join address, which ends in the token -/
  url : String
  callId : Option String
  bridged : Bool
  satisfaction : Option String
deriving DecidableEq

namespace Meeting

def defaultTtl : Int64 := 86400

def saturatingAdd (a b : Int64) : Int64 :=
  let sum := a.toInt + b.toInt
  if Int64.maxValue.toInt < sum then Int64.maxValue
  else if sum < Int64.minValue.toInt then Int64.minValue
  else .ofInt sum

/-- When a meeting expires: a requested time to live that is not positive stands for the default. -/
def expiry (createdAt requestedTtl defaultTtl : Int64) : Int64 :=
  saturatingAdd createdAt (if requestedTtl ≤ 0 then defaultTtl else requestedTtl)

/-- Whether the survey may be answered: a call connected and there is no answer yet. -/
def allowsSatisfaction (m : Meeting) : Bool :=
  m.bridged && m.callId.isSome && m.satisfaction.isNone

def isExpiredAt (m : Meeting) (now : Int64) : Bool := m.expiresAt ≤ now

/-- Whether callers may see the meeting: one with a call stays visible after it expired. -/
def isVisibleAt (m : Meeting) (now : Int64) : Bool := !m.isExpiredAt now || m.callId.isSome

structure View where
  /-- the token that was presented -/
  id : String
  domainId : Int64
  title : String
  createdAt : Int64
  expiresAt : Int64
  metadata : Dictionary String
  url : String
  callId : Option String
  bridged : Bool
  satisfaction : Option String
  allowSatisfaction : Bool
deriving DecidableEq

def view (m : Meeting) (token : String) : View where
  id := token
  domainId := m.domainId
  title := m.title
  createdAt := m.createdAt
  expiresAt := m.expiresAt
  metadata := m.metadata
  url := m.url
  callId := m.callId
  bridged := m.bridged
  satisfaction := m.satisfaction
  allowSatisfaction := m.allowsSatisfaction

end Meeting

structure ChatLink where
  conversationId : String
  closerId : String
  authUserId : Int64
deriving DecidableEq

end Rendezvous
