/-!
# Checkpoints

A run counts the checkpoints it passes. At every `every`-th of them it gives the other tasks a turn,
and at each it can find that it has been asked to stop.
-/

namespace RangeCalc

/-- The checkpoint counter of a run. -/
structure Checkpoint where
  /-- How many checkpoints lie between two suspensions. -/
  every : Nat
  /-- There is at least one. -/
  every_pos : 0 < every
  /-- How many checkpoints have been passed. -/
  count : Nat
  /-- Whether the run has been asked to stop. -/
  cancelled : Bool

namespace Checkpoint

/-- A fresh counter; an interval below one counts as one. -/
def ofInterval (every : Int) : Checkpoint :=
  ⟨max 1 every.toNat, by omega, 0, false⟩

/-- The interval of a run. -/
def standardInterval : Int := 256

/-- The counter at the start of a run. -/
def start : Checkpoint := ofInterval standardInterval

/-- Asks the run to stop. -/
def cancel (c : Checkpoint) : Checkpoint := { c with cancelled := true }

/-- Passes a checkpoint. -/
def pass (c : Checkpoint) : Checkpoint := { c with count := c.count + 1 }

/-- Whether the run is suspended at the checkpoint just passed. -/
def isDue (c : Checkpoint) : Bool := c.count % c.every == 0

/-- What can be done with a checkpoint counter. -/
inductive Step
  /-- Ask the run to stop. -/
  | cancel
  /-- Ask whether that has been done. -/
  | cancelled
  /-- Go on only if it has not. -/
  | check
  /-- Pass a checkpoint. -/
  | tick
  /-- Pass a checkpoint, and ask the run to stop during the suspension if there is one. -/
  | tickCancelling
  deriving DecidableEq

/-- What comes of it. -/
inductive Answer
  /-- It is done, without a suspension. -/
  | done
  | flag (value : Bool)
  /-- It is done, after a suspension. -/
  | suspended
  /-- The run has been asked to stop. -/
  | refused
  /-- The run has been asked to stop during the suspension. -/
  | refusedAfterSuspension
  deriving DecidableEq

/-- Passes a checkpoint, with `during` happening in the suspension, if there is one. -/
def tick (during : Checkpoint → Checkpoint) (c : Checkpoint) : Answer × Checkpoint :=
  if c.cancelled then (.refused, c)
  else if c.pass.isDue then
    let after := during c.pass
    (if after.cancelled then .refusedAfterSuspension else .suspended, after)
  else (.done, c.pass)

/-- Carries out a step. -/
def perform (c : Checkpoint) : Step → Answer × Checkpoint
  | .cancel => (.done, c.cancel)
  | .cancelled => (.flag c.cancelled, c)
  | .check => (if c.cancelled then .refused else .done, c)
  | .tick => c.tick id
  | .tickCancelling => c.tick cancel

/-- Carries out steps one after the other. -/
def performAll (c : Checkpoint) : List Step → List Answer
  | [] => []
  | step :: steps =>
    let (answer, after) := c.perform step
    answer :: after.performAll steps

end Checkpoint

end RangeCalc
