import RangeCalc.Run

/-!
# The events of a run

Whatever happens to a run, its events are put together in one way: the start, then what the
statements print, then the events of its ending. How it is cancelled decides how many statements are
executed and which ending it has, and nothing else.

* `Run.passStatement_cases`: what can happen at the checkpoint before a statement;
* `Run.events_execute`: the statements report nothing but texts;
* `Run.execute_append_of_completed`, `Run.execute_append_of_ended`: statements go on from what those
  before them leave;
* `Run.events_interpret_of_ok`: the events of a run, by the statements executed and the ending;
* `Run.interrupted_interpret_of_ok`: whether its task ends as interrupted, by the same;
* `Run.exists_log_interpret`: the log of a run.
-/

namespace RangeCalc

/-- The events with which a run ends. -/
def Ending.events : Ending → List Event
  | .completed => [.completed]
  | .failed error => [.error error.message, .completed]
  | .stopped => [.cancelled]
  | .interrupted => [.cancelled]

namespace Run

variable (plan : Cancellation)

theorem events_emit (run : Run) (event : Event) :
    (run.emit plan event).events = event :: run.events :=
  rfl

theorem events_foldl_emit (events : List Event) (run : Run) :
    (events.foldl (emit plan) run).events = events.reverse ++ run.events := by
  induction events generalizing run with
  | nil => rfl
  | cons event events ih =>
    rw [List.foldl_cons, ih, events_emit, List.reverse_cons, List.append_assoc,
      List.singleton_append]

/-- A run that ends reports the events of its ending. -/
theorem events_finish (run : Run) (ending : Ending) :
    (run.finish plan ending).2.events = ending.events.reverse ++ run.events := by
  cases ending <;> rfl

/-- The task of a run ends as interrupted if the statements did, or if an interruption is pending
behind the last event. -/
theorem endsInterrupted_finish (run : Run) (ending : Ending) :
    endsInterrupted (run.finish plan ending) =
      (ending = .interrupted || (ending.events.foldl (emit plan) run).interrupted) := by
  -- Unless the run completes, what is pending behind the last event strikes in the wait for it.
  have last (events : List Event) : endsInterrupted (run.emitLast plan events) =
      (events.foldl (emit plan) run).interrupted := by
    rw [emitLast, wait]
    cases (events.foldl (emit plan) run).interrupted <;> rfl
  cases ending with
  | completed => rfl
  | failed error => exact last _
  | stopped => exact last _
  | interrupted => rfl

/-- An evaluation reports nothing. -/
theorem events_evaluate {run after : Run} {e : Expr} {outcome : Except Ending Value}
    (h : run.evaluate e = (outcome, after)) : after.events = run.events := by
  have same : (run.evaluate e).2.events = run.events := rfl
  rwa [h] at same

section Checkpoint

variable {run after : Run} {result : Except Ending Unit}

/-- What can happen at the checkpoint before a statement: the token is found set, a pending
interruption strikes in the wait, or the run passes. -/
theorem passStatement_cases (run : Run) :
    (run.desk.checkpoint.cancelled = true ∧ run.passStatement = (.error .stopped, run)) ∨
    (run.desk.checkpoint.cancelled = false ∧ run.desk.pass.checkpoint.isDue = true ∧
      run.interrupted = true ∧ run.passStatement =
        (.error .interrupted, { run with desk := run.desk.pass, interrupted := false })) ∨
    (run.desk.checkpoint.cancelled = false ∧
      (run.desk.pass.checkpoint.isDue = true → run.interrupted = false) ∧
      run.passStatement = (.ok (), { run with desk := run.desk.pass })) := by
  obtain ⟨globals, desk, interrupted, events⟩ := run
  simp only [passStatement, wait]
  cases desk.checkpoint.cancelled with
  | true => exact .inl ⟨rfl, rfl⟩
  | false =>
    cases desk.pass.checkpoint.isDue with
    | false => exact .inr (.inr ⟨rfl, nofun, rfl⟩)
    | true =>
      cases interrupted with
      | false => exact .inr (.inr ⟨rfl, fun _ => rfl, rfl⟩)
      | true => exact .inr (.inl ⟨rfl, rfl, rfl, rfl⟩)

/-- Passing the checkpoint before a statement changes nothing but the desk. -/
theorem eq_of_passStatement (h : run.passStatement = (.ok (), after)) :
    after = { run with desk := run.desk.pass } := by
  obtain ⟨-, eq⟩ | ⟨-, -, -, eq⟩ | ⟨-, -, eq⟩ := run.passStatement_cases
  · cases eq.symm.trans h
  · cases eq.symm.trans h
  · cases eq.symm.trans h
    rfl

/-- The checkpoint before a statement reports nothing and writes nothing, and makes no interruption
pending. -/
theorem frame_of_passStatement (h : run.passStatement = (result, after)) :
    after.events = run.events ∧ after.globals = run.globals ∧
      (run.interrupted = false → after.interrupted = false) := by
  obtain ⟨-, eq⟩ | ⟨-, -, -, eq⟩ | ⟨-, -, eq⟩ := run.passStatement_cases
  · cases eq.symm.trans h
    exact ⟨rfl, rfl, id⟩
  · cases eq.symm.trans h
    exact ⟨rfl, rfl, fun _ => rfl⟩
  · cases eq.symm.trans h
    exact ⟨rfl, rfl, id⟩

/-- A run that does not pass the checkpoint before a statement was stopped or interrupted. -/
theorem ending_of_passStatement {ending : Ending} (h : run.passStatement = (.error ending, after)) :
    ending = .stopped ∨ ending = .interrupted := by
  obtain ⟨-, eq⟩ | ⟨-, -, -, eq⟩ | ⟨-, -, eq⟩ := run.passStatement_cases
  · cases eq.symm.trans h
    exact .inl rfl
  · cases eq.symm.trans h
    exact .inr rfl
  · cases eq.symm.trans h

end Checkpoint

/-- A statement reports at most one text, whether it ends the run or not. -/
theorem events_executeOne (run : Run) (stmt : Stmt) :
    ∃ outputs : List Text,
      (run.executeOne plan stmt).2.events = (outputs.map .output).reverse ++ run.events := by
  cases stmt with
  | var name e =>
    refine ⟨[], ?_⟩
    rcases eval : run.evaluate e with ⟨_ | value, after⟩
    · simp only [executeOne, eval]
      exact events_evaluate eval
    · simp only [executeOne, eval]
      exact events_evaluate eval
  | out e =>
    rcases eval : run.evaluate e with ⟨_ | value, after⟩
    · refine ⟨[], ?_⟩
      simp only [executeOne, eval]
      exact events_evaluate eval
    · refine ⟨[value.text], ?_⟩
      simp only [executeOne, eval, events_emit, events_evaluate eval]
      rfl
  | print text => exact ⟨[text], rfl⟩

/-- The statements report nothing but texts. -/
theorem events_execute (run : Run) (program : Program) :
    ∃ outputs : List Text,
      (run.execute plan program).2.events = (outputs.map .output).reverse ++ run.events := by
  -- A run may end before a statement, in it, or behind the last one.
  fun_induction execute plan run program with
  | case1 run => exact ⟨[], rfl⟩
  | case2 run stmt program ending left pass => exact ⟨[], (frame_of_passStatement pass).1⟩
  | case3 run stmt program passed pass after one ih =>
    obtain ⟨first, hfirst⟩ := events_executeOne plan passed stmt
    obtain ⟨later, hlater⟩ := ih
    refine ⟨first ++ later, ?_⟩
    rw [hlater, show after.events = _ from one ▸ hfirst, eq_of_passStatement pass, List.map_append,
      List.reverse_append, List.append_assoc]
  | case4 run stmt program passed pass ending after one =>
    obtain ⟨first, hfirst⟩ := events_executeOne plan passed stmt
    refine ⟨first, ?_⟩
    rw [show after.events = _ from one ▸ hfirst, eq_of_passStatement pass]

/-- A checkpoint does not complete a run. -/
theorem ne_completed_of_passStatement {run left : Run} {ending : Ending}
    (h : run.passStatement = (.error ending, left)) : ending ≠ .completed := by
  rcases ending_of_passStatement h with rfl | rfl
  · nofun
  · nofun

/-- An evaluation does not complete a run. -/
theorem ne_completed_of_evaluate {run after : Run} {e : Expr} {ending : Ending}
    (h : run.evaluate e = (.error ending, after)) : ending ≠ .completed := by
  simp only [evaluate, heed, Prod.mk.injEq] at h
  obtain ⟨outcome, -⟩ := h
  split at outcome <;> cases outcome <;> nofun

/-- A statement does not complete a run. -/
theorem ne_completed_of_executeOne {run after : Run} {stmt : Stmt} {ending : Ending}
    (h : run.executeOne plan stmt = (.error ending, after)) : ending ≠ .completed := by
  cases stmt with
  | var name e =>
    rcases eval : run.evaluate e with ⟨ending' | value, evaluated⟩
    · simp only [executeOne, eval, Prod.mk.injEq, Except.error.injEq] at h
      exact h.1 ▸ ne_completed_of_evaluate eval
    · simp [executeOne, eval] at h
  | out e =>
    rcases eval : run.evaluate e with ⟨ending' | value, evaluated⟩
    · simp only [executeOne, eval, Prod.mk.injEq, Except.error.injEq] at h
      exact h.1 ▸ ne_completed_of_evaluate eval
    · simp [executeOne, eval] at h
  | print text => simp [executeOne] at h

/-- Statements that are executed to their end are followed by the others. -/
theorem execute_append_of_completed {run mid : Run} {before : Program}
    (h : run.execute plan before = (.completed, mid)) (later : Program) :
    run.execute plan (before ++ later) = mid.execute plan later := by
  fun_induction execute plan run before with
  | case1 run =>
    cases h
    rfl
  | case2 run stmt program ending left pass =>
    exact absurd (Prod.mk.inj h).1 (ne_completed_of_passStatement pass)
  | case3 run stmt program passed pass after one ih =>
    simp only [List.cons_append, execute, pass, one]
    exact ih h
  | case4 run stmt program passed pass ending after one =>
    exact absurd (Prod.mk.inj h).1 (ne_completed_of_executeOne plan one)

/-- Statements that end the run are not followed by others. -/
theorem execute_append_of_ended {run : Run} {before : Program}
    (h : (run.execute plan before).1 ≠ .completed) (later : Program) :
    run.execute plan (before ++ later) = run.execute plan before := by
  fun_induction execute plan run before with
  | case1 run => exact absurd rfl h
  | case2 run stmt program ending left pass => simp only [List.cons_append, execute, pass]
  | case3 run stmt program passed pass after one ih =>
    simp only [List.cons_append, execute, pass, one]
    exact ih h
  | case4 run stmt program passed pass ending after one =>
    simp only [List.cons_append, execute, pass, one]

/-- A run right after its start. -/
def started : Run := (fresh plan).emit plan .started

/-- The events of a run over a text that is no program: it fails right after its start, cancelled or
not. -/
theorem events_interpret_of_error {text : Text} {failure : ParseFailure}
    (h : Program.ofText text = .error failure) :
    (interpret plan text).events = [.started, .error failure.cause.message, .completed] := by
  rw [interpret, h]
  rfl

/-- The events of a run over a program: those of its statements, from the start on, and of its
ending. -/
theorem events_interpret_of_ok {text : Text} {program : Program}
    (h : Program.ofText text = .ok program) :
    (interpret plan text).events =
      ((started plan).execute plan program).2.events.reverse ++
        ((started plan).execute plan program).1.events := by
  rw [interpret, h]
  simp only [report, events_finish, List.reverse_append, List.reverse_reverse]
  rfl

/-- The log of a run starts with the length of its text and ends with its ending. Between them it
tells of the statements, if the text is a program, and of reductions. -/
theorem exists_log_interpret (text : Text) :
    ∃ (parsed : List LogLine) (reductions : List Note), (interpret plan text).log =
        .started text.length :: parsed ++ reductions.map .reduction ++
          [.ended (interpret plan text).ending] ∧
      parsed = match Program.ofText text with
        | .error _ => []
        | .ok program => [.parsed program.length] := by
  rw [interpret]
  cases Program.ofText text with
  | error failure => exact ⟨_, _, rfl, rfl⟩
  | ok program => exact ⟨_, _, rfl, rfl⟩

/-- The ending of a run over a program is that of its statements. -/
theorem ending_interpret_of_ok {text : Text} {program : Program}
    (h : Program.ofText text = .ok program) :
    (interpret plan text).ending = ((started plan).execute plan program).1 := by
  rw [interpret, h]
  rfl

/-- The task of a run over a text that is no program ends as interrupted if an interruption is
pending behind its last event. -/
theorem interrupted_interpret_of_error {text : Text} {failure : ParseFailure}
    (h : Program.ofText text = .error failure) :
    (interpret plan text).interrupted =
      ((Ending.failed (.parse failure.cause)).events.foldl (emit plan) (started plan)).interrupted := by
  rw [interpret, h]
  exact endsInterrupted_finish plan (started plan) (.failed (.parse failure.cause))

/-- The task of a run over a program ends as interrupted if its statements do, or if an interruption
is pending behind its last event. -/
theorem interrupted_interpret_of_ok {text : Text} {program : Program}
    (h : Program.ofText text = .ok program) :
    (interpret plan text).interrupted =
      (((started plan).execute plan program).1 = .interrupted ||
        (((started plan).execute plan program).1.events.foldl (emit plan)
          ((started plan).execute plan program).2).interrupted) := by
  rw [interpret, h]
  exact endsInterrupted_finish plan _ _

end Run

end RangeCalc
