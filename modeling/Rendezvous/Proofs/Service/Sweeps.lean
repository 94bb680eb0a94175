import Rendezvous.Proofs.Service.Counts
import Rendezvous.Proofs.Store.Expiry

namespace Rendezvous

open Metrics Store

namespace Service

section

variable {d : Deployment} (cutoff : Int64)

theorem run_sweep_of_fault {fault : Fault} (h : d.faults .deleteExpired = some fault) :
    d.run (sweep cutoff) = (0, d) := by
  have hask : d.handle (.store (.deleteExpired cutoff)) = (.error fault, d) :=
    Deployment.perform_of_fault h
  unfold sweep Program.answer Deployment.run
  rw [Program.ask_bind, Program.run, hask]
  rfl

theorem run_sweep_of_healthy (h : d.faults .deleteExpired = none) : ∃ tally,
    d.run (sweep cutoff) = ((d.memory.deleteExpired cutoff).1,
      { d with memory := (d.memory.deleteExpired cutoff).2, tally }) ∧
    tally.of Counter.swept.series =
      d.tally.of Counter.swept.series + (d.memory.deleteExpired cutoff).1 := by
  have hkind : d.faults (Operation.kind (.deleteExpired cutoff)) = none := h
  obtain ⟨tally, hperform⟩ := Deployment.perform_of_healthy hkind
  have hask : d.handle (.store (.deleteExpired cutoff)) = (.ok (d.memory.deleteExpired cutoff).1,
      { d with memory := (d.memory.deleteExpired cutoff).2, tally }) := hperform
  have hkept := d.tally_perform (.deleteExpired cutoff) .swept
  rw [hperform] at hkept
  refine ⟨tally.count (.swept (d.memory.deleteExpired cutoff).1), ?_, ?_⟩
  · unfold sweep Program.answer Deployment.run
    rw [Program.ask_bind, Program.run, hask]
    rfl
  · rw [Tally.of_count_counter, hkept]
    rfl

end

namespace Sweeper

variable {w : Sweeper}

def later (w : Sweeper) : Sweeper := { w with elapsed := w.elapsed + 1 }

theorem sweeps_add (m n : Nat) : sweeps (m + n) = sweeps m >>= fun _ => sweeps n := by
  induction m with
  | zero => rw [Nat.zero_add]; rfl
  | succ m ih =>
    rw [Nat.succ_add]
    simp only [sweeps, ih, bind_assoc]

theorem pass_of_stopped (h : w.stopped) (seconds : Nat) : w.pass seconds = return w := if_pos h

theorem pass_of_running (h : w.stopped = false) (seconds : Nat) : w.pass seconds =
    sweeps (w.due seconds) >>= fun _ => pure { w with elapsed := w.elapsed + seconds } :=
  if_neg (by simp [h])

theorem pass_add (w : Sweeper) (m n : Nat) : w.pass (m + n) = w.pass m >>= (·.pass n) := by
  cases h : w.stopped with
  | true =>
    rw [pass_of_stopped h, pass_of_stopped h]
    exact (pass_of_stopped h n).symm
  | false =>
    -- what is due is a difference of quotients, which only grow
    have hdue : w.due (m + n) = w.due m + due { w with elapsed := w.elapsed + m } n := by
      have hm : w.elapsed / w.interval ≤ (w.elapsed + m) / w.interval :=
        Nat.div_le_div_right (Nat.le_add_right ..)
      have hn : (w.elapsed + m) / w.interval ≤ (w.elapsed + m + n) / w.interval :=
        Nat.div_le_div_right (Nat.le_add_right ..)
      unfold due made
      dsimp only
      rw [← Nat.add_assoc]
      omega
    have hrest : pass { w with elapsed := w.elapsed + m } n =
        sweeps (due { w with elapsed := w.elapsed + m } n) >>= fun _ =>
          pure { w with elapsed := w.elapsed + (m + n) } := by
      rw [pass_of_running (w := { w with elapsed := w.elapsed + m }) h, ← Nat.add_assoc]
    rw [pass_of_running h, pass_of_running h, hdue, sweeps_add, bind_assoc, bind_assoc]
    simp only [pure_bind, hrest]

/-- A sweep is made in the seconds whose number is a multiple of the interval. -/
theorem pass_one (h : w.stopped = false) : w.pass 1 =
    if w.interval ∣ w.elapsed + 1 then do
      let _ ← sweep (← Program.answer .clock)
      return w.later
    else return w.later := by
  have hdue : w.due 1 = if w.interval ∣ w.elapsed + 1 then 1 else 0 := by
    rw [due, made, Nat.succ_div]
    omega
  rw [pass_of_running h, hdue]
  split
  · simp only [sweeps, bind_assoc, pure_bind]
    rfl
  · rfl

end Sweeper

/-- A timer that ticks when it is made and then after each period. -/
structure Ticker where
  period : Nat
  next : Nat := 0
  elapsed : Nat := 0

namespace Ticker

def ticked (t : Ticker) : Ticker := { t with next := t.next + t.period }

def later (t : Ticker) : Ticker := { t with elapsed := t.elapsed + 1 }

/-- Lets a second pass, in which there is a sweep if the timer ticks. -/
def second (t : Ticker) : Program Ticker :=
  if t.next = t.elapsed + 1 then do
    let _ ← sweep (← Program.answer .clock)
    return t.ticked.later
  else return t.later

def seconds : Nat → Ticker → Program Ticker
  | 0, t => return t
  | n + 1, t => t.second >>= seconds n

def ofSweeper (w : Sweeper) : Ticker := ⟨w.interval, (w.made + 1) * w.interval, w.elapsed⟩

theorem next_ofSweeper_iff (w : Sweeper) :
    (ofSweeper w).next = (ofSweeper w).elapsed + 1 ↔ w.interval ∣ w.elapsed + 1 := by
  constructor
  · intro h
    exact ⟨_, h.symm.trans (Nat.mul_comm ..)⟩
  · intro h
    have hmade : w.made + 1 = (w.elapsed + 1) / w.interval := by
      rw [Nat.succ_div, if_pos h, Sweeper.made]
    exact (congrArg (· * w.interval) hmade).trans (Nat.div_mul_cancel h)

/-- A sweeper sweeps when its timer ticks, but for the tick at the start. -/
theorem second_ofSweeper {w : Sweeper} (h : w.stopped = false) :
    (ofSweeper w).second = ofSweeper <$> w.pass 1 := by
  have hmade : w.later.made = w.made + if w.interval ∣ w.elapsed + 1 then 1 else 0 := Nat.succ_div
  rw [Sweeper.pass_one h]
  by_cases hdvd : w.interval ∣ w.elapsed + 1
  · have hlater : (ofSweeper w).ticked.later = ofSweeper w.later := by
      rw [if_pos hdvd] at hmade
      rw [ofSweeper, ofSweeper, hmade, Nat.succ_mul (w.made + 1)]
      rfl
    rw [second, if_pos ((next_ofSweeper_iff w).mpr hdvd), if_pos hdvd, hlater]
    simp
  · have hlater : (ofSweeper w).later = ofSweeper w.later := by
      rw [if_neg hdvd] at hmade
      rw [ofSweeper, ofSweeper, hmade]
      rfl
    rw [second, if_neg (fun h => hdvd ((next_ofSweeper_iff w).mp h)), if_neg hdvd, hlater]
    simp

theorem seconds_ofSweeper {w : Sweeper} (h : w.stopped = false) (n : Nat) :
    (ofSweeper w).seconds n = ofSweeper <$> w.pass n := by
  induction n generalizing w with
  | zero =>
    have hdue : w.due 0 = 0 := Nat.sub_self _
    rw [Sweeper.pass_of_running h, hdue]
    rfl
  | succ n ih =>
    rw [seconds, second_ofSweeper h, Nat.add_comm, Sweeper.pass_add, Sweeper.pass_one h]
    split
    · simp [ih (w := w.later) h]
    · simp [ih (w := w.later) h]

theorem ofSweeper_start (interval : Nat) :
    ofSweeper { interval } = ({ period := interval } : Ticker).ticked := by
  simp [ofSweeper, Sweeper.made, ticked]

end Ticker

structure Second where
  now : Int64
  fault? : Option Fault

def during (d : Deployment) (x : Second) : Deployment :=
  { d with
    clock := ⟨x.now⟩
    faults := fun kind => if kind = .deleteExpired then x.fault? else d.faults kind }

/-- What becomes of a new sweeper and a deployment in some seconds, the last of which comes
first. -/
def watched (interval : Nat) (d : Deployment) : List Second → Sweeper × Deployment
  | [] => ({ interval }, d)
  | x :: xs => (during (watched interval d xs).2 x).run ((watched interval d xs).1.pass 1)

def cutoffs (interval : Nat) : List Second → List Int64
  | [] => []
  | x :: xs =>
    if interval ∣ xs.length + 1 ∧ x.fault? = none then x.now :: cutoffs interval xs
    else cutoffs interval xs

def returned (interval : Nat) (d : Deployment) : List Second → List Nat
  | [] => []
  | x :: xs =>
    if interval ∣ xs.length + 1 then
      ((during (watched interval d xs).2 x).run (sweep x.now)).1 :: returned interval d xs
    else returned interval d xs

section

variable {interval : Nat} {d : Deployment} {x : Second} {xs : List Second}

theorem run_pass_one {w : Sweeper} (h : w.stopped = false) (d : Deployment) :
    d.run (w.pass 1) =
      (w.later, if w.interval ∣ w.elapsed + 1 then (d.run (sweep d.clock.now)).2 else d) := by
  rw [Sweeper.pass_one h]
  split
  · change d.run (sweep d.clock.now >>= fun _ => pure w.later) = _
    rw [Deployment.run_bind]
    rfl
  · rfl

theorem fst_watched : (watched interval d xs).1 = { interval, elapsed := xs.length } := by
  induction xs with
  | nil => rfl
  | cons x xs ih =>
    rw [watched, ih, run_pass_one rfl]
    rfl

theorem snd_watched_cons : (watched interval d (x :: xs)).2 =
    if interval ∣ xs.length + 1 then ((during (watched interval d xs).2 x).run (sweep x.now)).2
    else during (watched interval d xs).2 x := by
  rw [watched, fst_watched, run_pass_one rfl]
  rfl

/-- After some seconds all is as if there had been one sweep, with the largest of the cut-offs. -/
structure Caught (interval : Nat) (d : Deployment) (xs : List Second) : Prop where
  memory : (watched interval d xs).2.memory = (d.memory.sweptBy (cutoffs interval xs)).2
  sum : (returned interval d xs).sum = (d.memory.sweptBy (cutoffs interval xs)).1
  tally : (watched interval d xs).2.tally.of Counter.swept.series =
    d.tally.of Counter.swept.series + (returned interval d xs).sum

theorem Caught.idle (h : Caught interval d xs) (idle : ¬interval ∣ xs.length + 1) :
    Caught interval d (x :: xs) where
  memory := by
    rw [snd_watched_cons, if_neg idle, cutoffs, if_neg (fun due => idle due.1)]
    exact h.memory
  sum := by
    rw [returned, if_neg idle, cutoffs, if_neg (fun due => idle due.1)]
    exact h.sum
  tally := by
    rw [snd_watched_cons, if_neg idle, returned, if_neg idle]
    exact h.tally

theorem Caught.failed (h : Caught interval d xs) (due : interval ∣ xs.length + 1) {fault : Fault}
    (hx : x.fault? = some fault) : Caught interval d (x :: xs) := by
  have hrun : (during (watched interval d xs).2 x).run (sweep x.now) = _ :=
    run_sweep_of_fault x.now hx
  have hcutoffs : cutoffs interval (x :: xs) = cutoffs interval xs := if_neg (by simp [hx])
  have hreturned : (returned interval d (x :: xs)).sum = (returned interval d xs).sum := by
    rw [returned, if_pos due, hrun, List.sum_cons, Nat.zero_add]
  refine ⟨?_, ?_, ?_⟩
  · rw [snd_watched_cons, if_pos due, hrun, hcutoffs]
    exact h.memory
  · rw [hreturned, hcutoffs]
    exact h.sum
  · rw [snd_watched_cons, if_pos due, hrun, hreturned]
    exact h.tally

theorem Caught.swept (h : Caught interval d xs) (due : interval ∣ xs.length + 1)
    (hx : x.fault? = none) : Caught interval d (x :: xs) := by
  obtain ⟨tally, hrun, hgrown⟩ :=
    run_sweep_of_healthy (d := during (watched interval d xs).2 x) x.now hx
  have hcutoffs : cutoffs interval (x :: xs) = x.now :: cutoffs interval xs := if_pos ⟨due, hx⟩
  have hreturned : (returned interval d (x :: xs)).sum = (returned interval d xs).sum +
      ((watched interval d xs).2.memory.deleteExpired x.now).1 := by
    rw [returned, if_pos due, hrun, List.sum_cons, Nat.add_comm]
    rfl
  refine ⟨?_, ?_, ?_⟩
  · rw [snd_watched_cons, if_pos due, hrun, hcutoffs, Memory.sweptBy_cons, ← h.memory]
    rfl
  · rw [hreturned, hcutoffs, Memory.sweptBy_cons, ← h.memory, ← h.sum]
  · rw [snd_watched_cons, if_pos due, hrun, hreturned, ← Nat.add_assoc, ← h.tally]
    exact hgrown

theorem caught (interval : Nat) (d : Deployment) (xs : List Second) : Caught interval d xs := by
  induction xs with
  | nil => exact ⟨rfl, rfl, rfl⟩
  | cons x xs ih =>
    -- a sweep is due that fails, or one that does not, or none
    by_cases due : interval ∣ xs.length + 1
    · cases hx : x.fault? with
      | some fault => exact ih.failed due hx
      | none => exact ih.swept due hx
    · exact ih.idle due

end

end Service

open Service in
/-- A sweeper is started and the seconds pass in any way. In the next second it makes a sweep
exactly if the number of that second from the start is a whole multiple of the interval, however the
sweeps before have ended; those are the ticks, but for the one at the start, of a timer that ticks
at once and then after each interval. A sweep that fails returns 0 and changes nothing. What is left
of the store are those meetings, in their order, that have not expired by the largest cut-off of the
sweeps that did not fail; the chats of the meetings that are gone are not linked any more, and all
others are as before. What the sweeps have returned adds up to the number of meetings that are gone,
and so does the growth of the counter. A sweeper that has been stopped does nothing. -/
theorem sweeps_catch_up (interval : Nat) (d : Deployment) (xs : List Second) :
    let w := (watched interval d xs).1
    let d' := (watched interval d xs).2
    let gone := d.memory.meetings.filter (·.isExpiredBy (cutoffs interval xs))
    (w.pass 1 = if interval ∣ xs.length + 1 then do
        let _ ← sweep (← Program.answer .clock)
        return w.later
      else return w.later) ∧
    (∀ x fault, x.fault? = some fault →
      (during d' x).run (sweep x.now) = (0, during d' x)) ∧
    d'.memory.meetings =
      d.memory.meetings.filter (fun m => !m.isExpiredBy (cutoffs interval xs)) ∧
    (∀ id, d'.memory.chatLink? id =
      if gone.any (·.id == id) then none else d.memory.chatLink? id) ∧
    (returned interval d xs).sum = gone.length ∧
    d'.tally.of Counter.swept.series = d.tally.of Counter.swept.series + gone.length ∧
    (∀ n, w.stop.pass n = return w.stop) ∧
    (∀ m n, w.pass (m + n) = w.pass m >>= (·.pass n)) ∧
    ∀ n, ({ period := interval } : Ticker).ticked.seconds n =
      Ticker.ofSweeper <$> ({ interval } : Sweeper).pass n := by
  have hcaught := caught interval d xs
  refine ⟨?_, fun x fault hx => run_sweep_of_fault x.now hx, ?_, fun id => ?_, ?_, ?_,
    Sweeper.pass_of_stopped rfl, Sweeper.pass_add _, fun n => ?_⟩
  · rw [fst_watched]
    exact Sweeper.pass_one rfl
  · rw [hcaught.memory, Memory.meetings_sweptBy]
  · rw [hcaught.memory, Memory.chatLink?_sweptBy]
  · rw [hcaught.sum, Memory.count_sweptBy]
  · rw [hcaught.tally, hcaught.sum, Memory.count_sweptBy]
  · rw [← Ticker.ofSweeper_start, Ticker.seconds_ofSweeper rfl]

end Rendezvous
