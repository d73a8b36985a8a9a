import RangeCalc.Loop.Descent
import RangeCalc.Loop.Fifo

/-!
# The loop

The loop serves the queue of turns first in, first out, and what a turn gives rise to joins the queue
at its end, until the root task is over. It always comes to that point: a turn leaves less to do or is
used up without a trace.

* `Loop.State.settle` runs the loop to its end;
* `Loop.run` carries out an action with its parts, from its first step on.
-/

namespace RangeCalc.Loop

variable {ν ε α : Type}

/-- The loop between two turns. -/
structure State (ν ε α : Type) where
  /-- The root task. -/
  task : Task ν ε α
  /-- The turns that wait. -/
  queue : Fifo Turn
  desk : Desk ν

namespace State

/-- The shapes of the root task, and at equal shapes the numbers of waiting turns, in descent. -/
instance : WellFoundedRelation (Shape ν ε α × Nat) :=
  Prod.lex ⟨Shape.Follows, Shape.follows_wf⟩ ⟨(· < ·), Nat.lt_wfRel.wf⟩

/-- Carries out a turn that has been taken from the queue. -/
def serve (s : State ν ε α) (turn : Turn) (rest : Fifo Turn) : State ν ε α :=
  let (task, turns, desk) := s.task.visit turn.path turn.act turn.path s.desk
  ⟨task, rest.pushAll turns, desk⟩

/-- A turn leaves less to do, or fewer turns. -/
theorem serve_descends {s : State ν ε α} {turn : Turn} {rest : Fifo Turn}
    (h : s.queue.pop? = some (turn, rest)) :
    WellFoundedRelation.rel ((s.serve turn rest).task.shape, (s.serve turn rest).queue.toList.length)
      (s.task.shape, s.queue.toList.length) := by
  have pop := Fifo.toList_of_pop?_eq_some h
  rcases Task.shape_visit turn.path turn.act turn.path s.task s.desk with ⟨shape, none⟩ | follows
  · have same : (s.serve turn rest).task.shape = s.task.shape := shape
    rw [same]
    refine Prod.Lex.right _ ?_
    have queue : (s.serve turn rest).queue.toList = rest.toList := by
      simp [serve, none]
    rw [queue, pop]
    exact Nat.lt_succ_self _
  · exact Prod.Lex.left _ _ follows

/-- Serves turns until the root task is over or no turn is left. -/
def settle (s : State ν ε α) : State ν ε α :=
  if s.task.isEnded then s
  else
    match _h : s.queue.pop? with
    | none => s
    | some (turn, rest) => (s.serve turn rest).settle
termination_by (s.task.shape, s.queue.toList.length)
decreasing_by exact serve_descends _h

theorem settle_of_isEnded {s : State ν ε α} (h : s.task.isEnded) : s.settle = s := by
  rw [settle, if_pos h]

theorem settle_of_none {s : State ν ε α} (h : s.queue.pop? = none) : s.settle = s := by
  rw [settle]
  split
  · rfl
  · split
    · rfl
    · rename_i pop
      cases h.symm.trans pop

theorem settle_of_pop {s : State ν ε α} {turn : Turn} {rest : Fifo Turn} (live : ¬s.task.isEnded)
    (h : s.queue.pop? = some (turn, rest)) : s.settle = (s.serve turn rest).settle := by
  rw [settle, if_neg live]
  split
  · rename_i none
    cases h.symm.trans none
  · rename_i pop
    cases h.symm.trans pop
    rfl

/-- What every turn keeps, the loop keeps. -/
theorem settle_induction {P : State ν ε α → Prop}
    (keep : ∀ s turn rest, P s → ¬s.task.isEnded → s.queue.pop? = some (turn, rest) →
      P (s.serve turn rest))
    (s : State ν ε α) (h : P s) : P s.settle := by
  fun_induction settle s with
  | case1 => exact h
  | case2 => exact h
  | case3 s live turn rest pop ih => exact ih (keep s turn rest h live pop)

end State

/-- The state after the first step of an action. The root task is already under way, so a pending
request to stop strikes it when it first has to wait. -/
def begin (interrupted : Bool) (action : Action ν ε α) (desk : Desk ν) : State ν ε α :=
  let (task, turns, desk) := Task.start interrupted action desk
  ⟨task, .ofList turns, desk⟩

/-- How an action ended, and what is on the desk then. -/
structure Report (ν ε α : Type) where
  outcome : Outcome ε α
  desk : Desk ν
  /-- Whether a pending request to stop is still pending, because the action never had to wait. -/
  interrupted : Bool

/-- Carries out an action. -/
def run (interrupted : Bool) (action : Action ν ε α) (desk : Desk ν) : Report ν ε α :=
  let first := begin interrupted action desk
  let last := first.settle
  { outcome := last.task.outcome?.getD (.error .cancelled)
    desk := last.desk
    interrupted := interrupted && first.task.isEnded }

end RangeCalc.Loop
