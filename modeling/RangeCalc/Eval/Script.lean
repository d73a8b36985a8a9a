import RangeCalc.Value
import RangeCalc.Loop.Action

/-!
# Scripts

Evaluation is written as scripts: a script of type `Script β` gives a `β` to what comes after it, on
the way taking the steps of an action. So an evaluation reads like a sequential program, and yet it is
an action that can be suspended, handed out as a part and stopped.

What a script notes on its way is left open: the scripts of an evaluation leave a `Note`.

A `Plan` describes what is needed for a `β`: a finite family of scripts, which do not depend on one
another, and how the `β` is built from their values. A plan with a single script is carried out in
place, and one with several hands them out as parts.
-/

namespace RangeCalc

open Loop

/-- Why an evaluation ended without a value. -/
inductive Failure
  /-- The expression has none. -/
  | fault (fault : Fault)
  /-- The run has been asked to stop. -/
  | stopped
  deriving DecidableEq

/-- What an evaluation notes: a `reduce` over this many elements, combined as a merge tree or by a
fold from the left. -/
structure Note where
  count : Nat
  merging : Bool
  body : Expr
  deriving DecidableEq

/-- The actions of an evaluation that leaves notes of type `ν`. -/
abbrev Evaluation (ν : Type) := Action ν Failure Value

/-- A script that gives a `β` to what comes after it. -/
def Script (ν β : Type) := (β → Evaluation ν) → Evaluation ν

variable {ν : Type}

instance : Monad (Script ν) where
  pure b next := next b
  bind script f next := script fun b => f b next

namespace Script

/-- Ends with a fault. -/
def fault {β : Type} (fault : Fault) : Script ν β := fun _ => .fail (.fault fault)

/-- Gives a result, or ends with a fault. -/
def ofExcept {β : Type} : Except Fault β → Script ν β
  | .ok b => pure b
  | .error f => fault f

/-- Ends if the run has been asked to stop. -/
def check : Script ν Unit := fun next =>
  .poll fun cancelled => if cancelled then .fail .stopped else next ()

/-- Passes a checkpoint, and ends if the run has been asked to stop before it or during the
suspension. -/
def tick : Script ν Unit := do
  check
  fun next => .tick fun _ => next ()
  check

/-- Leaves a note. -/
def note (message : ν) : Script ν Unit := fun next => .note message fun _ => next ()

/-- Hands out scripts as parts and gives their values. -/
def join (n : Nat) (part : Fin n → Script ν Value) : Script ν (Fin n → Value) := fun next =>
  .join n (fun i => part i .ret) next

/-- Carries out a script for every item, one after the other. -/
def each {β γ : Type} (script : β → Script ν γ) : List β → Script ν (List γ)
  | [] => pure []
  | item :: items => do
    let first ← script item
    let others ← each script items
    return first :: others

end Script

/-- Independent scripts, and what is built from their values. -/
structure Plan (ν β : Type) where
  count : Nat
  part : Fin count → Script ν Value
  build : (Fin count → Value) → β

namespace Plan

variable {β γ : Type}

/-- Needs no script. -/
def done (b : β) : Plan ν β := ⟨0, nofun, fun _ => b⟩

/-- Needs a single script. -/
def single (script : Script ν Value) : Plan ν Value := ⟨1, fun _ => script, fun values => values 0⟩

/-- What two plans give, side by side. -/
def both (p : Plan ν β) (q : Plan ν γ) : Plan ν (β × γ) where
  count := p.count + q.count
  part := Fin.addCases p.part q.part
  build values :=
    (p.build fun i => values (i.castAdd q.count), q.build fun i => values (i.natAdd p.count))

/-- A plan for something else that is built from the same values. -/
def map (f : β → γ) (p : Plan ν β) : Plan ν γ where
  count := p.count
  part := p.part
  build values := f (p.build values)

/-- Carries out a plan. -/
def run : Plan ν β → Script ν β
  | ⟨0, _, build⟩ => pure (build nofun)
  | ⟨1, part, build⟩ => do
    let value ← part 0
    return build fun _ => value
  | ⟨n + 2, part, build⟩ => do
    let values ← Script.join (n + 2) part
    return build values

end Plan

end RangeCalc
