import RangeCalc.Proofs.Loop.Desk
import RangeCalc.Proofs.Program.Concatenation
import RangeCalc.Proofs.Run.Interruption

/-!
# Runs of programs put together

What a statement does depends on the global frame and on the checkpoint counter that it finds, and on
nothing else of what has happened before. So the run of two programs with a gap between them is the
run of the first, and, if that one does not fail, what the second does from there on.

* `Run.after`: a run that has executed a program;
* `Run.eventsFrom`: what a program reports when it is executed from a global frame and a checkpoint
  counter on;
* `Run.execute_behind`: the events and the record of the past make no difference;
* `Run.eventsOf_append`: the events of two programs.
-/

namespace RangeCalc.Run

open Loop

/-- A run that is left alone, behind the last statement of the program that it gets to. -/
def after (program : Program) : Run := ((started .never).execute .never program).2

/-- A run that finds a global frame and a checkpoint counter, and has no past apart from that. -/
def resumed (globals : Frame) (checkpoint : Checkpoint) : Run := ⟨globals, ⟨checkpoint, []⟩, false, []⟩

/-- What a run that is left alone reports when it executes a program from a global frame and a
checkpoint counter on. -/
def eventsFrom (globals : Frame) (checkpoint : Checkpoint) (program : Program) : List Event :=
  let (ending, run) := (resumed globals checkpoint).execute .never program
  run.events.reverse ++ ending.events

/-- The run, with a past: events and entries of the record. -/
def behind (events : List Event) (record : List (Entry Note)) (run : Run) : Run :=
  { run with desk := run.desk.onto record, events := run.events ++ events }

section Past

variable (events : List Event) (record : List (Entry Note))

theorem emit_behind (run : Run) (event : Event) :
    (run.behind events record).emit .never event = (run.emit .never event).behind events record :=
  rfl

theorem passStatement_behind (run : Run) :
    (run.behind events record).passStatement =
      (run.passStatement.1, run.passStatement.2.behind events record) := by
  have asked : (run.behind events record).desk.checkpoint.cancelled =
      run.desk.checkpoint.cancelled := rfl
  have due : (run.behind events record).desk.pass.checkpoint.isDue =
      run.desk.pass.checkpoint.isDue := rfl
  simp only [passStatement, asked, due]
  split
  · rfl
  · split
    · rfl
    · rfl

/-- An evaluation reads neither the events nor the record. -/
theorem evaluate_behind (run : Run) (e : Expr) :
    (run.behind events record).evaluate e =
      ((run.evaluate e).1, (run.evaluate e).2.behind events record) := by
  simp only [evaluate, heed, behind, run_onto]

theorem executeOne_behind (run : Run) (stmt : Stmt) :
    (run.behind events record).executeOne .never stmt =
      ((run.executeOne .never stmt).1, (run.executeOne .never stmt).2.behind events record) := by
  cases stmt with
  | var name e =>
    rcases eval : run.evaluate e with ⟨ending | value, evaluated⟩
    · simp only [executeOne, evaluate_behind, eval]
    · simp only [executeOne, evaluate_behind, eval]
      rfl
  | out e =>
    rcases eval : run.evaluate e with ⟨ending | value, evaluated⟩
    · simp only [executeOne, evaluate_behind, eval]
    · simp only [executeOne, evaluate_behind, eval, emit_behind]
  | print text => rfl

/-- A program is executed in the same way whatever the past of the run. -/
theorem execute_behind (run : Run) (program : Program) :
    (run.behind events record).execute .never program =
      ((run.execute .never program).1, (run.execute .never program).2.behind events record) := by
  fun_induction execute .never run program with
  | case1 run => rfl
  | case2 run stmt program ending left pass => simp only [execute, passStatement_behind, pass]
  | case3 run stmt program passed pass executed one ih =>
    simp only [execute, passStatement_behind, pass, executeOne_behind, one, ih]
  | case4 run stmt program passed pass ending executed one =>
    simp only [execute, passStatement_behind, pass, executeOne_behind, one]

end Past

/-- A run that is left alone is one without a past, with a past. -/
theorem Alone.eq_behind {run : Run} (h : run.Alone) :
    run = (resumed run.globals run.desk.checkpoint).behind run.events run.desk.record := by
  obtain ⟨globals, desk, interrupted, events⟩ := run
  obtain rfl : interrupted = false := h.not_interrupted
  rfl

/-- What a run reports behind a point where it is left alone. -/
theorem Alone.events_execute {run : Run} (h : run.Alone) (program : Program) :
    (run.execute .never program).2.events.reverse ++ (run.execute .never program).1.events =
      run.events.reverse ++ eventsFrom run.globals run.desk.checkpoint program := by
  rw [h.eq_behind, execute_behind]
  simp only [behind, eventsFrom, List.reverse_append, List.append_assoc]
  rfl

/-- The events of a run over a program that it executes to its end. -/
theorem eventsOf_of_completed {text : Text} {program : Program}
    (h : Program.ofText text = .ok program)
    (completed : ((started .never).execute .never program).1 = .completed) :
    eventsOf text = (after program).events.reverse ++ [.completed] := by
  rw [eventsOf, events_interpret_of_ok .never h, completed]
  rfl

/-- A run that is left alone completes, or fails with an error. -/
theorem error_mem_eventsOf_iff {text : Text} {program : Program}
    (h : Program.ofText text = .ok program) :
    (∃ message, .error message ∈ eventsOf text) ↔
      ((started .never).execute .never program).1 ≠ .completed := by
  have parts := events_interpret_of_ok .never h
  obtain ⟨outputs, printed⟩ := events_execute .never (started .never) program
  have start : (started .never).events = [.started] := rfl
  have ending := (execute_alone alone_started program).2
  rw [eventsOf, parts, printed, start]
  split at ending
  · rw [ending]
    simp [Ending.events]
  · obtain ⟨fault, -, ending⟩ := ending
    rw [ending]
    simp [Ending.events]

/-- Two programs with a gap between them make up one program, with the statements of both. If the
run of the first fails, so does that of both, with the same events. If not, it reports what the
first does, short of its completion, and then what the second does from the global frame and the
checkpoint counter on that the first has left. -/
theorem eventsOf_append {text text' gap : Text} {program program' : Program}
    (h : Program.ofText text = .ok program) (h' : Program.ofText text' = .ok program')
    (some_gap : gap ≠ []) (hgap : ∀ c ∈ gap, Token.isGap c = true) :
    Program.ofText (text ++ gap ++ text') = .ok (program ++ program') ∧
      ((∃ message, .error message ∈ eventsOf text) →
        eventsOf (text ++ gap ++ text') = eventsOf text) ∧
      ((¬∃ message, .error message ∈ eventsOf text) →
        eventsOf text = (after program).events.reverse ++ [.completed] ∧
          eventsOf (text ++ gap ++ text') =
            (after program).events.reverse ++
              eventsFrom (after program).globals (after program).desk.checkpoint program') := by
  have both := Program.ofText_append h h' some_gap hgap
  have parts : eventsOf (text ++ gap ++ text') = _ := events_interpret_of_ok .never both
  rw [error_mem_eventsOf_iff h]
  refine ⟨both, fun fails => ?_, fun completes => ?_⟩
  · rw [execute_append_of_ended .never fails] at parts
    rw [parts, eventsOf, events_interpret_of_ok .never h]
  · rw [not_not] at completes
    have left : (started .never).execute .never program = (.completed, after program) :=
      Prod.ext completes rfl
    rw [execute_append_of_completed .never left] at parts
    have alone : (after program).Alone := alone_started.execute program
    exact ⟨eventsOf_of_completed h completes, parts.trans (alone.events_execute program')⟩

/-- Nothing but a blank separates the statements here. -/
theorem eventsOf_append_of_print_statements :
    Program.ofText "print \"a\" print \"b\"" = .ok [.print "a", .print "b"] ∧
      eventsOf "print \"a\" print \"b\"" =
        [.started, .output "a"] ++ eventsFrom [] Checkpoint.start.pass [.print "b"] := by
  have parsed : Program.ofText "print \"a\"" = .ok [.print "a"] := by rfl
  have parsed' : Program.ofText "print \"b\"" = .ok [.print "b"] := by rfl
  have gap : ∀ c ∈ (" " : Text), Token.isGap c = true := List.all_eq_true.1 rfl
  have some_gap : (" " : Text) ≠ [] := List.cons_ne_nil ' ' []
  obtain ⟨both, -, completes⟩ := eventsOf_append parsed parsed' some_gap gap
  have completed : ¬∃ message, .error message ∈ eventsOf "print \"a\"" := by
    rw [error_mem_eventsOf_iff parsed]
    exact fun fails => fails rfl
  exact ⟨both, (completes completed).2⟩

end RangeCalc.Run
