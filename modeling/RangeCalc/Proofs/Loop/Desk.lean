import RangeCalc.Loop.Run

/-!
# What lies under the record

Actions write on the record of the desk and never read it. So what has been recorded before an action
is carried out stays where it is, and makes no difference to it: the outcome, the checkpoint counter
and the new entries are those of a desk with an empty record.

* `Desk.onto`: the desk, on top of older entries;
* `Action.advance_onto`, `Task.visit_onto`: one step and one turn;
* `run_onto`: the whole loop.
-/

namespace RangeCalc.Loop

variable {ν ε α : Type}

/-- The desk, with its record on top of older entries. -/
def Desk.onto (old : List (Entry ν)) (desk : Desk ν) : Desk ν :=
  { desk with record := desk.record ++ old }

variable (old : List (Entry ν))

/-- An action goes on in the same way whatever has been recorded before. -/
theorem Action.advance_onto (action : Action ν ε α) (desk : Desk ν) :
    action.advance (desk.onto old) =
      ((action.advance desk).1, (action.advance desk).2.onto old) := by
  induction action generalizing desk with
  | ret | fail => rfl
  | note message next ih => exact ih () (desk.write (.noted message))
  | poll next ih => exact ih _ desk
  | tick next ih =>
    have pass : (desk.onto old).pass = desk.pass.onto old := rfl
    have due : (desk.pass.onto old).checkpoint.isDue = desk.pass.checkpoint.isDue := rfl
    rw [advance, advance, pass, due]
    split
    · rfl
    · exact ih () desk.pass
  | join n part next _ ih =>
    cases n with
    | zero => exact ih _ desk
    | succ n => rfl

namespace Task

/-- What comes of a turn, with the record on top of older entries. -/
def onto (result : Task ν ε α × List Turn × Desk ν) : Task ν ε α × List Turn × Desk ν :=
  (result.1, result.2.1, result.2.2.onto old)

theorem start_onto (stopped : Bool) (action : Action ν ε α) (desk : Desk ν) :
    start stopped action (desk.onto old) = onto old (start stopped action desk) := by
  simp only [start, onto, Action.advance_onto]

theorem stopAt_onto (path : List Nat) (stop : Stop ε) (desk : Desk ν) :
    stopAt path stop (desk.onto old) = (onto old (stopAt path stop desk) : Task ν ε α × _ × _) := by
  cases stop <;> rfl

theorem resume_onto (path : List Nat) (t : Task ν ε α) (desk : Desk ν) :
    t.resume path (desk.onto old) = onto old (t.resume path desk) := by
  cases t with
  | ended outcome => rfl
  | ready stopped action =>
    cases stopped with
    | true => exact stopAt_onto old path _ desk
    | false => exact start_onto old false action desk
  | joined n parts stage awaited next =>
    cases stage with
    | gathering stopped => rfl
    | settled stop =>
      cases stop with
      | none =>
        rw [resume, resume]
        split
        · exact start_onto old false _ desk
        · exact stopAt_onto old path _ desk
      | some stop => rfl
    | draining stop =>
      rw [resume, resume]
      split
      · exact stopAt_onto old path stop desk
      · rfl

/-- A turn goes on in the same way whatever has been recorded before. -/
theorem visit_onto (whole : List Nat) (act : Act) (path : List Nat) (t : Task ν ε α)
    (desk : Desk ν) :
    t.visit whole act path (desk.onto old) = onto old (t.visit whole act path desk) := by
  induction path generalizing t with
  | nil =>
    cases act with
    | resume => exact resume_onto old whole t desk
    | hear again i => rfl
  | cons i path ih =>
    cases t with
    | ready | ended => rfl
    | joined n parts stage awaited next =>
      rw [visit, visit]
      split
      · simp only [ih, onto]
      · rfl

end Task

/-- The loop, with its record on top of older entries. -/
def State.onto (s : State ν ε α) : State ν ε α := { s with desk := s.desk.onto old }

theorem State.serve_onto (s : State ν ε α) (turn : Turn) (rest : Fifo Turn) :
    (s.onto old).serve turn rest = (s.serve turn rest).onto old := by
  simp only [serve, State.onto, Task.visit_onto, Task.onto]

theorem State.settle_onto (s : State ν ε α) : (s.onto old).settle = s.settle.onto old := by
  fun_induction settle s with
  | case1 s ended => exact settle_of_isEnded ended
  | case2 s live none => exact settle_of_none none
  | case3 s live turn rest pop ih =>
    have next : (s.onto old).settle = ((s.onto old).serve turn rest).settle := settle_of_pop live pop
    rw [next, serve_onto, ih]

/-- An action is carried out in the same way whatever has been recorded before. -/
theorem run_onto (interrupted : Bool) (action : Action ν ε α) (desk : Desk ν) :
    run interrupted action (desk.onto old) =
      { run interrupted action desk with desk := (run interrupted action desk).desk.onto old } := by
  have first : begin interrupted action (desk.onto old) =
      (begin interrupted action desk).onto old := by
    simp only [begin, Task.start_onto, Task.onto, State.onto]
  simp only [run, first, State.settle_onto]
  rfl

end RangeCalc.Loop
