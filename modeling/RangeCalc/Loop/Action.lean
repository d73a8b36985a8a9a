import RangeCalc.Checkpoint

/-!
# Actions

An action is a computation that is carried out in steps, so that several of them can take turns. It
ends with a value or with an error. On its way it may leave a note, look whether the run has been
asked to stop, pass a checkpoint, or *join*: hand out a finite family of parts, wait for their values
and go on with them. What follows a step is a function, so no step is computed before its turn.

* `Action.advance` carries an action on to the next point where it has to wait: its end, a suspension
  at a checkpoint, or a join.
-/

namespace RangeCalc.Loop

/-- A computation in steps, with notes of type `ν`, errors of type `ε` and values of type `α`. -/
inductive Action (ν ε α : Type)
  /-- Ends with a value. -/
  | ret (value : α)
  /-- Ends with an error. -/
  | fail (error : ε)
  /-- Leaves a note. -/
  | note (message : ν) (next : Unit → Action ν ε α)
  /-- Looks whether the run has been asked to stop. -/
  | poll (next : Bool → Action ν ε α)
  /-- Passes a checkpoint. -/
  | tick (next : Unit → Action ν ε α)
  /-- Hands out parts and goes on with their values. -/
  | join (n : Nat) (part : Fin n → Action ν ε α) (next : (Fin n → α) → Action ν ε α)

/-- Why an action ended without a value. -/
inductive Stop (ε : Type)
  /-- It failed. -/
  | error (e : ε)
  /-- It was stopped from outside. -/
  | cancelled
  deriving DecidableEq

/-- How an action ended. -/
abbrev Outcome (ε α : Type) := Except (Stop ε) α

/-- An entry of the record of a run. -/
inductive Entry (ν : Type)
  /-- An action left a note. -/
  | noted (message : ν)
  /-- The task at this place was stopped from outside. -/
  | cancelled (path : List Nat)
  deriving DecidableEq

/-- What all actions of a run share: the checkpoint counter and the record, newest entry first. -/
structure Desk (ν : Type) where
  checkpoint : Checkpoint
  record : List (Entry ν)

/-- The desk with one more entry. -/
def Desk.write {ν : Type} (desk : Desk ν) (entry : Entry ν) : Desk ν :=
  { desk with record := entry :: desk.record }

/-- The desk after one more checkpoint. -/
def Desk.pass {ν : Type} (desk : Desk ν) : Desk ν :=
  { desk with checkpoint := desk.checkpoint.pass }

/-- Where an action has to wait. -/
inductive Halt (ν ε α : Type)
  /-- It is over. -/
  | ended (outcome : Outcome ε α)
  /-- It is suspended and goes on with `rest` at its next turn. -/
  | paused (rest : Action ν ε α)
  /-- It waits for the values of its parts. -/
  | forked (n : Nat) (part : Fin n → Action ν ε α) (next : (Fin n → α) → Action ν ε α)

variable {ν ε α : Type}

/-- Carries an action on until it has to wait. A join without parts does not wait. -/
def Action.advance : Action ν ε α → Desk ν → Halt ν ε α × Desk ν
  | ret value, desk => (.ended (.ok value), desk)
  | fail error, desk => (.ended (.error (.error error)), desk)
  | note message next, desk => (next ()).advance (desk.write (.noted message))
  | poll next, desk => (next desk.checkpoint.cancelled).advance desk
  | tick next, desk =>
    if desk.pass.checkpoint.isDue then (.paused (next ()), desk.pass)
    else (next ()).advance desk.pass
  | join 0 _ next, desk => (next nofun).advance desk
  | join (n + 1) part next, desk => (.forked (n + 1) part next, desk)

end RangeCalc.Loop
