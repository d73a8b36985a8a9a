import RangeCalc.Proofs.Eval.Refinement
import RangeCalc.Proofs.Run.Events

/-!
# Runs refine plain interpretation

A program can be interpreted without tasks, checkpoints and batches: its statements one after the
other over one global frame, each expression by plain recursion (`Program.plain`). A run that is
left alone reports the same events, up to the wording of an error. It prints the same texts in the
same order, it fails if and only if the plain interpretation does, at the same statement, and then
with a fault that some operand, element body or check of that statement raises.

So neither the distance of the suspensions, nor the size of the batches of `map`, nor the size of
the trees that `reduce` takes apart shows in the events.

* `Run.execute_alone`: what comes of the statements of a program;
* `Run.messagesOf_of_ofText`: what a run prints and, if it fails, the error;
* `Run.eventsOf_refines_plain`: the events of a run.
-/

namespace RangeCalc

open Loop

/-! ## Plain interpretation -/

/-- A statement that fails: its expression, the global frame it finds, and the first fault. -/
structure PlainFailure where
  globals : Frame
  expr : Expr
  fault : Fault

/-- What comes of a plain interpretation: the texts it prints, and the statement that fails, if one
does. -/
structure PlainResult where
  outputs : List Text
  failure : Option PlainFailure

/-- Interprets statements in order, from a global frame on. -/
def Program.plain : Frame → Program → PlainResult
  | _, [] => ⟨[], none⟩
  | globals, .var name e :: program =>
    match e.value [globals] with
    | .ok value => plain (globals.define name value) program
    | .error fault => ⟨[], some ⟨globals, e, fault⟩⟩
  | globals, .out e :: program =>
    match e.value [globals] with
    | .ok value =>
      let later := plain globals program
      ⟨value.text :: later.outputs, later.failure⟩
    | .error fault => ⟨[], some ⟨globals, e, fault⟩⟩
  | globals, .print text :: program =>
    let later := plain globals program
    ⟨text :: later.outputs, later.failure⟩

/-- The events of a plain interpretation. -/
def Program.plainEvents (program : Program) : List Event :=
  let result := program.plain []
  .started :: result.outputs.map .output ++
    match result.failure with
    | none => [.completed]
    | some failure => [.error failure.fault.message, .completed]

/-- An event without the wording of an error. -/
def Event.unworded : Event → Event
  | .error _ => .error []
  | event => event

/-! ## Runs that are left alone -/

namespace Run

/-- Nobody has asked the run to stop, and no interruption is pending. -/
structure Alone (run : Run) : Prop where
  not_asked : run.desk.checkpoint.cancelled = false
  not_interrupted : run.interrupted = false

/-- The desk may change, as long as nobody asks the run to stop. -/
theorem Alone.withDesk {run : Run} (h : run.Alone) {desk : Desk Note}
    (not_asked : desk.checkpoint.cancelled = false) : Alone { run with desk := desk } :=
  ⟨not_asked, h.not_interrupted⟩

/-- A run that is left alone passes the checkpoint before a statement. -/
theorem Alone.passStatement {run : Run} (h : run.Alone) :
    run.passStatement = (.ok (), { run with desk := run.desk.pass }) := by
  obtain ⟨asked, -⟩ | ⟨-, -, interrupted, -⟩ | ⟨-, -, passed⟩ := run.passStatement_cases
  · cases h.not_asked.symm.trans asked
  · cases h.not_interrupted.symm.trans interrupted
  · exact passed

/-- Reporting an event leaves a run alone if the plan does. -/
theorem Alone.emit {run : Run} (h : run.Alone) (event : Event) : (run.emit .never event).Alone :=
  ⟨h.not_asked, by rw [Run.emit, h.not_interrupted]; rfl⟩

/-- An expression comes to its value, or, if it has none, to a fault that it raises. The evaluation
changes nothing but the desk. -/
theorem Alone.evaluate {run : Run} (h : run.Alone) (e : Expr) :
    ∃ desk : Desk Note, desk.checkpoint.cancelled = false ∧
      ((∃ v, e.value [run.globals] = .ok v ∧ run.evaluate e = (.ok v, { run with desk := desk })) ∨
        ∃ first fault, e.value [run.globals] = .error first ∧ e.Raises [run.globals] fault ∧
          run.evaluate e = (.error (.failed (.fault fault)), { run with desk := desk })) := by
  refine ⟨(Loop.run false (e.eval [run.globals] .ret) run.desk).desk, ?_, ?_⟩
  · rw [cancelled_run, h.not_asked]
  · have still : (Loop.run false (e.eval [run.globals] .ret) run.desk).interrupted = false := rfl
    rw [Run.evaluate, h.not_interrupted, heed]
    rcases e.outcome_eval [run.globals] run.desk h.not_asked with
      ⟨v, hv, outcome⟩ | ⟨first, fault, hfirst, raises, outcome⟩
    · exact .inl ⟨v, hv, by simp only [outcome, still]⟩
    · exact .inr ⟨first, fault, hfirst, raises, by simp only [outcome, still]⟩

/-- A run with the events `before`, newest first, has come to an end as the plain interpretation
does: it has printed the same texts, and has completed, or failed with a fault of the statement that
fails. -/
def EndsAs (plain : PlainResult) (before : List Event) (last : Ending × Run) : Prop :=
  last.2.events = (plain.outputs.map .output).reverse ++ before ∧
    match plain.failure with
    | none => last.1 = .completed
    | some failure => ∃ fault, failure.expr.Raises [failure.globals] fault ∧
        last.1 = .failed (.fault fault)

/-- What a statement has printed comes before what the later ones print. -/
theorem EndsAs.printed {plain : PlainResult} {before : List Event} {last : Ending × Run}
    {text : Text} (h : EndsAs plain (.output text :: before) last) :
    EndsAs ⟨text :: plain.outputs, plain.failure⟩ before last := by
  refine ⟨?_, h.2⟩
  rw [h.1, List.map_cons, List.reverse_cons, List.append_assoc, List.singleton_append]

/-- A run that is left alone goes through a program as the plain interpretation does. -/
theorem execute_alone {run : Run} (h : run.Alone) (program : Program) :
    EndsAs (program.plain run.globals) run.events (run.execute .never program) := by
  induction program generalizing run with
  | nil => exact ⟨rfl, rfl⟩
  | cons stmt program ih =>
    -- The checkpoint before the statement lets the run pass, as nobody asks it to stop.
    have passed : Alone { run with desk := run.desk.pass } := h.withDesk h.not_asked
    rw [execute, h.passStatement]
    cases stmt with
    | var name e =>
      obtain ⟨desk, not_asked, ⟨v, hv, eval⟩ | ⟨first, fault, hfirst, raises, eval⟩⟩ :=
        passed.evaluate e
      · simp only [executeOne, eval, Program.plain, hv]
        have defined : Alone { run with globals := run.globals.define name v, desk := desk } :=
          ⟨not_asked, h.not_interrupted⟩
        exact ih defined
      · simp only [executeOne, eval, Program.plain, hfirst]
        exact ⟨rfl, fault, raises, rfl⟩
    | out e =>
      obtain ⟨desk, not_asked, ⟨v, hv, eval⟩ | ⟨first, fault, hfirst, raises, eval⟩⟩ :=
        passed.evaluate e
      · simp only [executeOne, eval, Program.plain, hv]
        exact (ih ((h.withDesk not_asked).emit (.output v.text))).printed
      · simp only [executeOne, eval, Program.plain, hfirst]
        exact ⟨rfl, fault, raises, rfl⟩
    | print text =>
      simp only [executeOne, Program.plain]
      exact (ih (passed.emit (.output text))).printed

/-- The events of a run that is left alone. -/
theorem eventsOf_of_ofText {text : Text} {program : Program}
    (h : Program.ofText text = .ok program) :
    match (program.plain []).failure with
    | none => eventsOf text = .started :: (program.plain []).outputs.map .output ++ [.completed]
    | some failure => ∃ fault, failure.expr.Raises [failure.globals] fault ∧
        eventsOf text =
          .started :: (program.plain []).outputs.map .output ++
            [.error fault.message, .completed] := by
  have alone : (started .never).Alone := Alone.emit ⟨rfl, rfl⟩ .started
  obtain ⟨events, ending⟩ := execute_alone alone program
  have globals : (started .never).globals = [] := rfl
  rw [globals] at events ending
  -- Events are collected newest first, and are reported in order.
  have reported : eventsOf text = .started :: (program.plain []).outputs.map .output ++
      ((started .never).execute .never program).1.events := by
    rw [eventsOf, events_interpret_of_ok .never h, events, List.reverse_append,
      List.reverse_reverse]
    rfl
  split
  · rename_i completes
    rw [completes] at ending
    rw [reported, show _ = Ending.completed from ending]
    rfl
  · rename_i failure fails
    rw [fails] at ending
    obtain ⟨fault, raises, ending⟩ := ending
    refine ⟨fault, raises, ?_⟩
    rw [reported, ending]
    rfl

/-- The texts that a run prints come before the messages of its ending. -/
theorem messagesOf_of_eventsOf {text : Text} {outputs : List Text} {ending : List Event}
    (h : eventsOf text = .started :: outputs.map .output ++ ending) :
    messagesOf text = outputs ++ ending.filterMap Event.message? := by
  have printed : (outputs.map Event.output).filterMap Event.message? = outputs := by
    rw [List.filterMap_map]
    exact List.filterMap_some
  rw [messagesOf, h, List.filterMap_append, List.filterMap_cons_none rfl, printed]

/-- The messages of a run that is left alone are the texts that it prints, and, if it fails, the error
behind them. -/
theorem messagesOf_of_ofText {text : Text} {program : Program}
    (h : Program.ofText text = .ok program) :
    match (program.plain []).failure with
    | none => messagesOf text = (program.plain []).outputs
    | some failure => ∃ fault, failure.expr.Raises [failure.globals] fault ∧
        messagesOf text = (program.plain []).outputs ++ [fault.message] := by
  have events := eventsOf_of_ofText h
  split at events
  · exact (messagesOf_of_eventsOf events).trans (List.append_nil _)
  · obtain ⟨fault, raises, events⟩ := events
    exact ⟨fault, raises, messagesOf_of_eventsOf events⟩

/-- A run that is left alone reports the events of the plain interpretation, up to the wording of an
error, and an error is worded for a fault that the statement failing there raises. -/
theorem eventsOf_refines_plain {text : Text} {program : Program}
    (h : Program.ofText text = .ok program) :
    (eventsOf text).map Event.unworded = program.plainEvents.map Event.unworded ∧
      ∀ message, .error message ∈ eventsOf text → ∃ failure fault,
        (program.plain []).failure = some failure ∧
          failure.expr.Raises [failure.globals] fault ∧ message = fault.message := by
  have events := eventsOf_of_ofText h
  rw [Program.plainEvents]
  cases failure : (program.plain []).failure with
  | none =>
    rw [failure] at events
    rw [events]
    exact ⟨rfl, by simp⟩
  | some failure' =>
    rw [failure] at events
    obtain ⟨fault, raises, events⟩ := events
    rw [events]
    refine ⟨?_, fun message mem => ⟨failure', fault, rfl, raises, ?_⟩⟩
    · simp only [List.map_append, List.map_cons, Event.unworded]
    · simpa using mem

/-- Both operands of the product fail here, and the run words the fault that is heard first. -/
theorem eventsOf_refines_plain_of_two_faults :
    ∃ program, Program.ofText "print \"a\" out (x + y) * (z ^ w)" = .ok program ∧
      (eventsOf "print \"a\" out (x + y) * (z ^ w)").map Event.unworded =
        program.plainEvents.map Event.unworded ∧
      ∀ message, .error message ∈ eventsOf "print \"a\" out (x + y) * (z ^ w)" → ∃ failure fault,
        (program.plain []).failure = some failure ∧
          failure.expr.Raises [failure.globals] fault ∧ message = fault.message := by
  have parses : (Program.ofText "print \"a\" out (x + y) * (z ^ w)").toOption.isSome = true := by
    decide +kernel
  cases parsed : Program.ofText "print \"a\" out (x + y) * (z ^ w)" with
  | error failure =>
    rw [parsed] at parses
    cases parses
  | ok program => exact ⟨program, rfl, eventsOf_refines_plain parsed⟩

end Run

end RangeCalc
