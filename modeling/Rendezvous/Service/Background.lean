import Rendezvous.Call.Hangup
import Rendezvous.Service.Lifecycle

namespace Rendezvous.Service

def takeHangup (s : Service) (hangup : Call.Hangup) : Program Call.Outcome :=
  match hangup.data.meetingId with
  | none => return .skipped
  | some reference => do
    match ← (s.attachCall reference hangup.id hangup.bridged).run with
    | .ok (.linked _) => return .linked
    | .ok (.alreadyLinked _) => return .alreadyLinked
    | .error _ => return .failed

def takeEvent (s : Service) (payload : List UInt8) : Program Call.Outcome := do
  let outcome ←
    match Call.Hangup.ofPayload payload with
    | .error _ => pure .unparseable
    | .ok hangup => s.takeHangup hangup
  Program.answer (.count (.callEnded outcome))
  return outcome

/-- Takes the payloads of queued events, each to its end before the next. -/
def takeEvents (s : Service) : List (List UInt8) → Program (List Call.Outcome)
  | [] => return []
  | payload :: payloads => do
    let outcome ← s.takeEvent payload
    return outcome :: (← s.takeEvents payloads)

def sweep (now : Int64) : Program Nat := do
  match ← Program.answer (.store (.deleteExpired now)) with
  | .ok count =>
    Program.answer (.count (.swept count))
    return count
  | .error _ => return 0

/-- The sweeps that are made again and again: at each whole multiple of the interval after the
start, and not at the start. -/
structure Sweeper where
  interval : Nat
  /-- the seconds from the start until now or the stop -/
  elapsed : Nat := 0
  stopped : Bool := false

namespace Sweeper

def made (w : Sweeper) : Nat := w.elapsed / w.interval

def due (w : Sweeper) (seconds : Nat) : Nat := (w.elapsed + seconds) / w.interval - w.made

def sweeps : Nat → Program Unit
  | 0 => return ()
  | n + 1 => do
    let _ ← sweep (← Program.answer .clock)
    sweeps n

/-- Lets some seconds pass, in which the due sweeps are made, unless they have been stopped. -/
def pass (w : Sweeper) (seconds : Nat) : Program Sweeper :=
  if w.stopped then return w
  else do
    sweeps (w.due seconds)
    return { w with elapsed := w.elapsed + seconds }

def stop (w : Sweeper) : Sweeper := { w with stopped := true }

end Sweeper

end Rendezvous.Service
