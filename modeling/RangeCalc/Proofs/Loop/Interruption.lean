import RangeCalc.Proofs.Loop.Outcome

/-!
# A pending interruption

An action may be carried out while a request to stop its task is pending. The request strikes where
the action first has to wait: a suspended action does not go on, and a join finds all its parts
stopped before their first turn. Either way the action ends as stopped from outside. An action that
never has to wait does not notice the request, which is then still pending.

* `Halt.waits`: an action has to wait at a suspension or a join, not at its end;
* `Task.Doomed`: a task that can only end as stopped from outside. Every turn keeps this
  (`Task.doomed_visit`);
* `run_of_not_waits`, `outcome_run_of_waits`: what comes of an action with a request pending.
-/

namespace RangeCalc.Loop

variable {ν ε α : Type}

/-- Whether there is something to wait for: the next turn, or the parts of a join. -/
def Halt.waits : Halt ν ε α → Bool
  | .ended _ => false
  | .paused _ => true
  | .forked _ _ _ => true

namespace Task

/-- A task that can only end as stopped from outside. A join is decided by the first part that it
hears of, so it is doomed with its parts; once decided, the parts do not matter. -/
inductive Doomed : Task ν ε α → Prop
  | ready (action : Action ν ε α) : Doomed (.ready true action)
  | ended : Doomed (.ended (.error .cancelled))
  | gathering {n : Nat} {parts : Fin n → Task ν ε α} {stopped : Bool} {awaited : List Nat}
      {next : (Fin n → α) → Action ν ε α} :
      (∀ i, Doomed (parts i)) → Doomed (.joined n parts (.gathering stopped) awaited next)
  | settled {n : Nat} {parts : Fin n → Task ν ε α} {awaited : List Nat}
      {next : (Fin n → α) → Action ν ε α} :
      Doomed (.joined n parts (.settled (some .cancelled)) awaited next)
  | draining {n : Nat} {parts : Fin n → Task ν ε α} {awaited : List Nat}
      {next : (Fin n → α) → Action ν ε α} :
      Doomed (.joined n parts (.draining .cancelled) awaited next)

/-- A task that has a request pending where it has to wait is doomed. -/
theorem doomed_start {action : Action ν ε α} {desk : Desk ν}
    (h : (action.advance desk).1.waits = true) : (start true action desk).1.Doomed := by
  rw [start_eq]
  cases halt : (action.advance desk).1 with
  | ended outcome =>
    rw [halt] at h
    cases h
  | paused rest => exact .ready rest
  | forked n part next => exact .gathering fun i => .ready (part i)

theorem doomed_resume {t : Task ν ε α} (path : List Nat) (desk : Desk ν) (h : t.Doomed) :
    (t.resume path desk).1.Doomed := by
  cases h with
  | ready action => exact .ended
  | ended => exact .ended
  | gathering parts => exact .gathering parts
  | settled => exact .draining
  | draining =>
    rw [resume]
    split
    · exact .ended
    · exact .draining

theorem doomed_hearFirst {t : Task ν ε α} (i : Nat) (h : t.Doomed) : (t.hearFirst i).1.Doomed := by
  cases h with
  | ready action => exact .ready action
  | ended => exact .ended
  | @gathering n parts stopped awaited next doomed =>
    rw [hearFirst]
    split
    · rename_i hi
      split
      · exact .gathering doomed
      · -- The part heard of has been stopped, and that decides the join.
        rename_i stop outcome
        have part := doomed ⟨i, hi⟩
        rw [eq_ended_of_outcome? outcome] at part
        cases part
        cases stopped <;> exact .settled
      · rename_i value outcome
        have part := doomed ⟨i, hi⟩
        rw [eq_ended_of_outcome? outcome] at part
        cases part
    · exact .gathering doomed
  | settled => exact .settled
  | draining => exact .draining

theorem doomed_hearAgain {t : Task ν ε α} (i : Nat) (h : t.Doomed) : (t.hearAgain i).1.Doomed := by
  cases h with
  | ready action => exact .ready action
  | ended => exact .ended
  | gathering parts => exact .gathering parts
  | settled => exact .settled
  | draining =>
    rw [hearAgain]
    split
    · exact .draining
    · exact .draining

/-- A turn does not save a doomed task. -/
theorem doomed_visit (whole : List Nat) (act : Act) (path : List Nat) {t : Task ν ε α}
    (desk : Desk ν) (h : t.Doomed) : (t.visit whole act path desk).1.Doomed := by
  induction path generalizing t with
  | nil =>
    cases act with
    | resume => exact doomed_resume whole desk h
    | hear again i =>
      cases again with
      | false => exact doomed_hearFirst i h
      | true => exact doomed_hearAgain i h
  | cons i path ih =>
    cases h with
    | ready action => exact .ready action
    | ended => exact .ended
    | @gathering n parts stopped awaited next doomed =>
      rw [visit]
      split
      · rename_i hi
        simp only [get_ofFn]
        refine .gathering fun j => ?_
        by_cases hji : j = ⟨i, hi⟩
        · rw [replace, if_pos hji]
          exact ih (doomed _)
        · rw [replace, if_neg hji]
          exact doomed j
      · exact .gathering doomed
    | settled =>
      rw [visit]
      split
      · exact .settled
      · exact .settled
    | draining =>
      rw [visit]
      split
      · exact .draining
      · exact .draining

end Task

variable {action : Action ν ε α} {desk : Desk ν}

/-- An action that never has to wait does not notice a pending request to stop. -/
theorem run_of_not_waits (h : (action.advance desk).1.waits = false) (interrupted : Bool) :
    run interrupted action desk = { run false action desk with interrupted := interrupted } := by
  cases halt : (action.advance desk).1 with
  | ended outcome =>
    -- The task is over with its first step, and the loop has nothing to do.
    have first : ∀ stopped, begin stopped action desk =
        ⟨.ended outcome, .ofList [], (action.advance desk).2⟩ := by
      intro stopped
      rw [begin, Task.start_eq, halt]
      rfl
    have settled : State.settle ⟨.ended outcome, .ofList [], (action.advance desk).2⟩ =
        ⟨.ended outcome, .ofList [], (action.advance desk).2⟩ := by
      rw [State.settle]
      rfl
    simp only [run, first, settled]
    cases interrupted <;> rfl
  | paused rest =>
    rw [halt] at h
    cases h
  | forked n part next =>
    rw [halt] at h
    cases h

/-- An action that has to wait while a request to stop is pending ends as stopped from outside. -/
theorem outcome_run_of_waits (h : (action.advance desk).1.waits = true) :
    (run true action desk).outcome = .error .cancelled := by
  have doomed : (begin true action desk).settle.task.Doomed :=
    State.settle_induction (P := fun s => s.task.Doomed)
      (fun s turn rest doomed _ _ => Task.doomed_visit turn.path turn.act turn.path s.desk doomed) _
      (Task.doomed_start h)
  rw [settle_begin] at doomed
  generalize (run true action desk).outcome = outcome at doomed
  cases doomed
  rfl

end RangeCalc.Loop
