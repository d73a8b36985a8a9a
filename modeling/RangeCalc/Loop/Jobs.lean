import RangeCalc.Loop.Run
import RangeCalc.Text

/-!
# Joining jobs

A job suspends itself for a number of turns and then returns a value or fails. Joining a list of jobs
runs them side by side and records when each starts and ends.
-/

namespace RangeCalc.Loop

/-- A job. -/
structure Job (β : Type) where
  /-- For how many turns it suspends itself. -/
  yields : Nat
  /-- What it comes to. -/
  result : Except Text β

/-- What a job notes about itself. -/
inductive JobNote
  | started (i : Nat)
  | done (i : Nat)
  | failed (i : Nat)
  deriving DecidableEq

namespace Job

variable {β : Type}

/-- Passes `n` checkpoints. -/
def pause (next : Unit → Action JobNote Text (List β)) : Nat → Action JobNote Text (List β)
  | 0 => next ()
  | n + 1 => .tick fun _ => pause next n

/-- The action of the `i`-th job. -/
def action (job : Job β) (i : Nat) : Action JobNote Text (List β) :=
  .note (.started i) fun _ =>
    pause (fun _ =>
      match job.result with
      | .ok value => .note (.done i) fun _ => .ret [value]
      | .error message => .note (.failed i) fun _ => .fail message) job.yields

/-- The action that joins the jobs and returns their values in order. -/
def joinAll (jobs : List (Job β)) : Action JobNote Text (List β) :=
  .join jobs.length (fun i => (jobs.get i).action i) fun values => .ret (List.ofFn values).flatten

/-- Runs jobs side by side, on a desk where every checkpoint suspends. Gives how the join ended and
the record, oldest entry first. -/
def runAll (jobs : List (Job β)) : Outcome Text (List β) × List (Entry JobNote) :=
  let report := run false (joinAll jobs) ⟨.ofInterval 1, []⟩
  (report.outcome, report.desk.record.reverse)

end Job

end RangeCalc.Loop
