import RangeCalc.Loop.Run

/-!
# A loop with a guest

The loop may have to serve a *guest*: a task of its own that has nothing to do with the root task
and its parts. A turn of the guest waits in the same queue as the turns of the others, and is
served when it is its turn. It has a state `σ`, and what it does in a turn is a function on that.

* `Loop.Shared.State.settle` runs the loop until the root task is over; a turn of the guest that has
  not been served by then is still to come;
* `Loop.Shared.run` carries out an action with its parts, next to a guest.
-/

namespace RangeCalc.Loop.Shared

variable {ν ε α σ : Type}

/-- The loop between two turns. -/
structure State (ν ε α σ : Type) where
  /-- The root task. -/
  task : Task ν ε α
  /-- The turns that wait; `none` is a turn of the guest. -/
  queue : Fifo (Option Turn)
  desk : Desk ν
  guest : σ

namespace State

/-- Carries out a turn that has been taken from the queue; `visit` is what the guest does. -/
def serve (visit : σ → σ) (s : State ν ε α σ) (turn : Option Turn) (rest : Fifo (Option Turn)) :
    State ν ε α σ :=
  match turn with
  | none => { s with queue := rest, guest := visit s.guest }
  | some turn =>
    let (task, turns, desk) := s.task.visit turn.path turn.act turn.path s.desk
    { s with task := task, queue := rest.pushAll (turns.map some), desk := desk }

/-- A turn leaves less to do, or fewer turns. -/
theorem serve_descends {visit : σ → σ} {s : State ν ε α σ} {turn : Option Turn}
    {rest : Fifo (Option Turn)} (h : s.queue.pop? = some (turn, rest)) :
    WellFoundedRelation.rel
      ((s.serve visit turn rest).task.shape, (s.serve visit turn rest).queue.toList.length)
      (s.task.shape, s.queue.toList.length) := by
  have fewer : rest.toList.length < s.queue.toList.length := by
    rw [Fifo.toList_of_pop?_eq_some h]
    exact Nat.lt_succ_self _
  cases turn with
  | none => exact Prod.Lex.right _ fewer
  | some turn =>
    rcases Task.shape_visit turn.path turn.act turn.path s.task s.desk with ⟨shape, none⟩ | follows
    · have same : (s.serve visit (some turn) rest).task.shape = s.task.shape := shape
      rw [same]
      refine Prod.Lex.right _ ?_
      have queue : (s.serve visit (some turn) rest).queue.toList = rest.toList := by
        simp [serve, none]
      rwa [queue]
    · exact Prod.Lex.left _ _ follows

/-- Serves turns until the root task is over or no turn is left. -/
def settle (visit : σ → σ) (s : State ν ε α σ) : State ν ε α σ :=
  if s.task.isEnded then s
  else
    match _h : s.queue.pop? with
    | none => s
    | some (turn, rest) => (s.serve visit turn rest).settle visit
termination_by (s.task.shape, s.queue.toList.length)
decreasing_by exact serve_descends _h

end State

/-- The state after the first step of an action. If a turn of the guest is due, it comes first. -/
def begin (due : Bool) (guest : σ) (interrupted : Bool) (action : Action ν ε α) (desk : Desk ν) :
    State ν ε α σ :=
  let (task, turns, desk) := Task.start interrupted action desk
  ⟨task, .ofList ((if due then [none] else []) ++ turns.map some), desk, guest⟩

/-- Carries out an action. Gives its report, and the guest as it is then. -/
def run (visit : σ → σ) (due : Bool) (guest : σ) (interrupted : Bool) (action : Action ν ε α)
    (desk : Desk ν) : Report ν ε α × σ :=
  let first := begin due guest interrupted action desk
  let last := first.settle visit
  ({ outcome := last.task.outcome?.getD (.error .cancelled)
     desk := last.desk
     interrupted := interrupted && first.task.isEnded }, last.guest)

end RangeCalc.Loop.Shared
