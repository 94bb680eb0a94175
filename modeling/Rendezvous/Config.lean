import Rendezvous.Dictionary
import Rendezvous.Meeting.Basic
import Rendezvous.Numeral.Bounded
import Rendezvous.Text.Blank
import Rendezvous.Text.Quoted
import Rendezvous.Text.Secret
import Rendezvous.Text.Utf8

namespace Rendezvous

open Text (Secret)

structure Config where
  tokenSecret : Secret
  /-- the database; without one meetings are kept in memory -/
  databaseUrl : Option Secret
  bindAddress : String
  /-- how long a meeting lives if its draft does not say, in seconds -/
  defaultTtl : Int64
  cacheCapacity : UInt64
  sweepInterval : UInt64
  chatServiceUrl : Option String
  callEngineUrl : Option String
  serviceToken : Option Secret
deriving DecidableEq

namespace Config

inductive Fault where
  | missing (name : String)
  | shortSecret (length : Nat)
  | unreadable (name value : String) (flaw : Numeral.Bounded.Flaw)
  | notPositive (name : String) (value : Int)
deriving DecidableEq, Repr

/-- The fewest octets of a token secret. -/
def minSecretLength : Nat := 16

def Fault.message : Fault → String
  | missing name => "Missing required environment variable: " ++ name
  | shortSecret length =>
    "Invalid token secret: MEETING_TOKEN_SECRET must be at least " ++
      Numeral.Decimal.text minSecretLength ++ " bytes, got " ++ Numeral.Decimal.text length
  | unreadable name value flaw =>
    "Invalid configuration value: " ++ name ++ " must be a valid positive integer, got '" ++
      value ++ "': " ++ flaw.message
  | notPositive name value =>
    "Invalid configuration value: " ++ name ++ " must be greater than 0, got " ++
      Numeral.Decimal.signedText value

def defaultBindAddress : String := "0.0.0.0:8090"

def defaultCacheCapacity : UInt64 := 50000

def defaultSweepInterval : UInt64 := 60

abbrev Variables := Dictionary String

def readSecret (vars : Variables) : Except Fault Secret :=
  match vars.get? "MEETING_TOKEN_SECRET" with
  | none => .error (.missing "MEETING_TOKEN_SECRET")
  | some secret =>
    let length := (Text.Utf8.encode secret).length
    if length < minSecretLength then .error (.shortSecret length) else .ok ⟨secret⟩

/-- A variable without blanks around it; a blank one counts as absent. -/
def readText (vars : Variables) (name : String) : Option String :=
  ((vars.get? name).map Text.Blank.trim).filter (· != "")

def readPositive (below above : Nat) (vars : Variables) (name : String) :
    Except Fault (Option Int) :=
  match vars.get? name with
  | none => .ok none
  | some value =>
    match Numeral.Bounded.read below above (Text.Blank.trim value).toList with
    | .error flaw => .error (.unreadable name value flaw)
    | .ok n => if n ≤ 0 then .error (.notPositive name n) else .ok (some n)

def readTtl (vars : Variables) (name : String) (default : Int64) : Except Fault Int64 :=
  (readPositive 0x8000000000000000 0x7fffffffffffffff vars name).map fun n =>
    (n.map Int64.ofInt).getD default

def readCount (vars : Variables) (name : String) (default : UInt64) : Except Fault UInt64 :=
  (readPositive 0 0xffffffffffffffff vars name).map fun n => (n.map UInt64.ofInt).getD default

/-- The configuration that variables stand for; the first flaw in the order of the fields counts. -/
def ofVariables (vars : Variables) : Except Fault Config := do
  let tokenSecret ← readSecret vars
  let defaultTtl ← readTtl vars "MEETING_DEFAULT_TTL_SECONDS" Meeting.defaultTtl
  let cacheCapacity ← readCount vars "MEETING_CACHE_CAPACITY" defaultCacheCapacity
  let sweepInterval ← readCount vars "MEETING_SWEEP_INTERVAL_SECONDS" defaultSweepInterval
  return {
    tokenSecret
    databaseUrl := (readText vars "DATABASE_URL").map Secret.mk
    bindAddress := (vars.get? "BIND_ADDRESS").getD defaultBindAddress
    defaultTtl
    cacheCapacity
    sweepInterval
    chatServiceUrl := readText vars "CHAT_SERVICE_URL"
    callEngineUrl := readText vars "CALL_ENGINE_URL"
    serviceToken := (readText vars "SERVICE_TOKEN").map Secret.mk }

def usesDatabase (c : Config) : Bool := c.databaseUrl.any (·.reveal != "")

def shownOption : Option String → String
  | some s => "Some(" ++ Text.Quoted.text s ++ ")"
  | none => "None"

def redacted (_ : Secret) : String := "[REDACTED]"

def shown (c : Config) : String :=
  let fields := [("token_secret", Text.Quoted.text (redacted c.tokenSecret)),
    ("database_url", shownOption (c.databaseUrl.map redacted)),
    ("bind_address", Text.Quoted.text c.bindAddress),
    ("default_ttl_seconds", Numeral.Decimal.signedText c.defaultTtl.toInt),
    ("cache_capacity", Numeral.Decimal.text c.cacheCapacity.toNat),
    ("sweep_interval", Numeral.Decimal.text c.sweepInterval.toNat ++ "s"),
    ("chat_service_url", shownOption c.chatServiceUrl),
    ("call_engine_url", shownOption c.callEngineUrl),
    ("service_token", shownOption (c.serviceToken.map redacted))]
  "Config \x7b " ++ ", ".intercalate (fields.map fun f => f.1 ++ ": " ++ f.2) ++ " \x7d"

end Config

end Rendezvous
