import RangeCalc.Proofs.Loop.Interruption
import RangeCalc.Proofs.Run.Cut
import RangeCalc.Proofs.Session.Lifecycle

/-!
# A task that is interrupted at an event

An interruption of the task of a run is pending from the event at which it is made until the run next
has to wait: at the checkpoint before a statement, if that suspends, or in an evaluation that comes
to a suspension or hands out parts. There the run ends as cancelled. A run that does not have to wait
again goes on to its end, and reports what it would have reported anyway, an error included. Its task
ends as cancelled all the same: the interruption strikes while the run waits for the task that
reports its last events, or it is still pending when the run returns.

So there is no need to look at the interrupted run in order to tell what becomes of it: the run that
is left alone does the same up to that point, and it shows where it has to wait.

* `Run.WaitsAfter`: a run that is left alone has to wait behind its `n`-th event;
* `Run.execute_of_waitsFrom`, `Run.execute_of_not_waitsFrom`: what an interruption does to the
  statements;
* `Run.interrupted_interpret_taskAt`: the task ends as interrupted in any case;
* `Run.events_interpret_taskAt`: the events of an interrupted run.
-/

namespace RangeCalc

open Loop

/-- The task is interrupted right after the `n`-th event. -/
def Cancellation.taskAt (n : Nat) : Cancellation := ⟨false, none, some n⟩

/-- The expression that a statement evaluates, if it evaluates one. -/
def Stmt.expr? : Stmt → Option Expr
  | var _ e => some e
  | out e => some e
  | print _ => none

namespace Run

variable {n : Nat} {run : Run}

/-! ## Waiting -/

/-- Executing a statement has to wait: the checkpoint before it suspends, or the evaluation of its
expression comes to a suspension or a join. -/
def WaitsIn (run : Run) (stmt : Stmt) : Prop :=
  run.desk.pass.checkpoint.isDue = true ∨
    ∃ e, stmt.expr? = some e ∧
      ((e.eval [run.globals] .ret).advance run.desk.pass).1.waits = true

/-- Left alone, the run comes to a statement of the program that it has to wait in, and has reported
`n` events before it. -/
def WaitsFrom (n : Nat) (run : Run) (program : Program) : Prop :=
  ∃ before stmt later mid, program = before ++ stmt :: later ∧
    run.execute .never before = (.completed, mid) ∧ n ≤ mid.events.length ∧ mid.WaitsIn stmt

/-- A run of the text that is left alone has to wait behind its `n`-th event. -/
def WaitsAfter (text : Text) (n : Nat) : Prop :=
  ∃ program, Program.ofText text = .ok program ∧ WaitsFrom n (started .never) program

/-- A program is executed to its end if its first statement is, and then the others are. -/
theorem execute_cons_eq_completed {plan : Cancellation} {mid : Run} {stmt : Stmt}
    {before : Program} :
    run.execute plan (stmt :: before) = (.completed, mid) ↔
      ∃ after, run.execute plan [stmt] = (.completed, after) ∧
        after.execute plan before = (.completed, mid) := by
  rw [← List.singleton_append]
  rcases one : run.execute plan [stmt] with ⟨ending, after⟩
  by_cases completed : ending = .completed
  · subst completed
    rw [execute_append_of_completed plan one]
    constructor
    · exact fun h => ⟨after, rfl, h⟩
    · rintro ⟨_, ⟨⟩, h⟩
      exact h
  · have ended : (run.execute plan [stmt]).1 ≠ .completed := by rwa [one]
    rw [execute_append_of_ended plan ended, one]
    constructor
    · exact fun h => absurd (Prod.mk.inj h).1 completed
    · rintro ⟨_, h, -⟩
      exact absurd (Prod.mk.inj h).1 completed

/-- A run waits in the first statement, or behind it. -/
theorem waitsFrom_cons {stmt : Stmt} {program : Program} :
    WaitsFrom n run (stmt :: program) ↔ (n ≤ run.events.length ∧ run.WaitsIn stmt) ∨
      ∃ after, run.execute .never [stmt] = (.completed, after) ∧ WaitsFrom n after program := by
  constructor
  · rintro ⟨before, stmt', later, mid, split, executed, le, waits⟩
    cases before with
    | nil =>
      cases split
      cases executed
      exact .inl ⟨le, waits⟩
    | cons first before =>
      obtain ⟨rfl, rfl⟩ := List.cons.inj split
      obtain ⟨after, one, executed⟩ := execute_cons_eq_completed.1 executed
      exact .inr ⟨after, one, before, stmt', later, mid, rfl, executed, le, waits⟩
  · rintro (⟨le, waits⟩ | ⟨after, one, before, stmt', later, mid, rfl, executed, le, waits⟩)
    · exact ⟨[], stmt, program, run, rfl, rfl, le, waits⟩
    · exact ⟨stmt :: before, stmt', later, mid, rfl,
        execute_cons_eq_completed.2 ⟨after, one, executed⟩, le, waits⟩

/-! ## Runs that stay alone -/

theorem Alone.executeOne (h : run.Alone) (stmt : Stmt) : (run.executeOne .never stmt).2.Alone := by
  cases stmt with
  | var name e =>
    obtain ⟨desk, not_asked, ⟨v, -, eval⟩ | ⟨_, fault, -, -, eval⟩⟩ := h.evaluate e
    · simp only [Run.executeOne, eval]
      exact ⟨not_asked, h.not_interrupted⟩
    · simp only [Run.executeOne, eval]
      exact h.withDesk not_asked
  | out e =>
    obtain ⟨desk, not_asked, ⟨v, -, eval⟩ | ⟨_, fault, -, -, eval⟩⟩ := h.evaluate e
    · simp only [Run.executeOne, eval]
      exact (h.withDesk not_asked).emit _
    · simp only [Run.executeOne, eval]
      exact h.withDesk not_asked
  | print text => exact h.emit _

/-- A run that is left alone stays alone. -/
theorem Alone.execute (h : run.Alone) (program : Program) :
    (run.execute .never program).2.Alone := by
  fun_induction Run.execute Cancellation.never run program with
  | case1 run => exact h
  | case2 run stmt program ending left pass => cases h.passStatement.symm.trans pass
  | case3 run stmt program passed pass after one ih =>
    have passed_alone : passed.Alone := by
      rw [eq_of_passStatement pass]
      exact h.withDesk h.not_asked
    have after_alone := passed_alone.executeOne stmt
    rw [one] at after_alone
    exact ih after_alone
  | case4 run stmt program passed pass ending after one =>
    have passed_alone : passed.Alone := by
      rw [eq_of_passStatement pass]
      exact h.withDesk h.not_asked
    have after_alone := passed_alone.executeOne stmt
    rwa [one] at after_alone

theorem alone_started : (started .never).Alone := Alone.emit ⟨rfl, rfl⟩ .started

/-! ## What an interruption does to a statement -/

/-- The run as it is if its task is interrupted at the `n`-th event. -/
def pending (n : Nat) (run : Run) : Run :=
  { run with interrupted := decide (n ≤ run.events.length) }

theorem emit_pending (run : Run) (event : Event) :
    (run.pending n).emit (.taskAt n) event = (run.emit .never event).pending n := by
  have reached : (decide (n ≤ run.events.length) || some n == some (run.events.length + 1)) =
      decide (n ≤ run.events.length + 1) := by
    rw [Bool.eq_iff_iff]
    simp only [Bool.or_eq_true, decide_eq_true_eq, beq_iff_eq, Option.some.injEq]
    omega
  simp only [emit, pending, Cancellation.taskAt, Cancellation.never, List.length_cons, reached,
    reduceCtorEq, if_false]

/-- Events are the same if the task is interrupted at one of them. -/
theorem foldl_emit_pending (events : List Event) (run : Run) :
    events.foldl (emit (.taskAt n)) (run.pending n) =
      (events.foldl (emit .never) run).pending n := by
  induction events generalizing run with
  | nil => rfl
  | cons event events ih => rw [List.foldl_cons, List.foldl_cons, emit_pending, ih]

/-- An interruption is pending behind events if the `n`-th of the run is one of them, or if it was
pending before. -/
theorem interrupted_foldl_emit_pending (events : List Event) (run : Run) :
    (events.foldl (emit (.taskAt n)) (run.pending n)).interrupted =
      decide (n ≤ events.length + run.events.length) := by
  rw [foldl_emit_pending, pending, events_foldl_emit, List.length_append, List.length_reverse]

/-- A checkpoint lets an interrupted run pass if it does not suspend it. -/
theorem passStatement_pending (h : run.Alone)
    (calm : n ≤ run.events.length → run.desk.pass.checkpoint.isDue = false) :
    (run.pending n).passStatement = (.ok (), pending n { run with desk := run.desk.pass }) := by
  obtain ⟨asked, -⟩ | ⟨-, due, interrupted, -⟩ | ⟨-, -, passed⟩ := (run.pending n).passStatement_cases
  · cases h.not_asked.symm.trans asked
  · cases (calm (of_decide_eq_true interrupted)).symm.trans due
  · exact passed

/-- A checkpoint that suspends an interrupted run ends it. -/
theorem passStatement_pending_of_due (h : run.Alone) (le : n ≤ run.events.length)
    (due : run.desk.pass.checkpoint.isDue = true) :
    ∃ left, (run.pending n).passStatement = (.error .interrupted, left) ∧
      left.events = run.events := by
  obtain ⟨asked, -⟩ | ⟨-, -, -, struck⟩ | ⟨-, calm, -⟩ := (run.pending n).passStatement_cases
  · cases h.not_asked.symm.trans asked
  · exact ⟨_, struck, rfl⟩
  · cases (calm due).symm.trans (decide_eq_true le)

section Evaluation

variable {e : Expr}

/-- An evaluation that does not have to wait does not notice an interruption. -/
theorem evaluate_pending (h : run.Alone)
    (calm : n ≤ run.events.length →
      ((e.eval [run.globals] .ret).advance run.desk).1.waits = false) :
    (run.pending n).evaluate e = ((run.evaluate e).1, (run.evaluate e).2.pending n) := by
  have same : Loop.run (decide (n ≤ run.events.length)) (e.eval [run.globals] .ret) run.desk =
      { Loop.run false (e.eval [run.globals] .ret) run.desk with
        interrupted := decide (n ≤ run.events.length) } := by
    by_cases le : n ≤ run.events.length
    · exact run_of_not_waits (calm le) _
    · rw [decide_eq_false le]
      rfl
  simp only [evaluate, heed, pending, h.not_interrupted, same]

/-- An evaluation that has to wait ends an interrupted run. -/
theorem evaluate_pending_of_waits (le : n ≤ run.events.length)
    (waits : ((e.eval [run.globals] .ret).advance run.desk).1.waits = true) :
    ∃ after, (run.pending n).evaluate e = (.error .interrupted, after) := by
  have stopped := outcome_run_of_waits waits
  simp only [evaluate, heed, pending, le, decide_true, stopped]
  exact ⟨_, rfl⟩

end Evaluation

/-- A statement whose evaluation does not have to wait does what it does in a run that is left
alone. -/
theorem executeOne_pending (h : run.Alone) {stmt : Stmt}
    (calm : ∀ e, stmt.expr? = some e → n ≤ run.events.length →
      ((e.eval [run.globals] .ret).advance run.desk).1.waits = false) :
    (run.pending n).executeOne (.taskAt n) stmt =
      ((run.executeOne .never stmt).1, (run.executeOne .never stmt).2.pending n) := by
  cases stmt with
  | var name e =>
    rcases eval : run.evaluate e with ⟨ending | value, after⟩
    · simp only [executeOne, evaluate_pending h (calm e rfl), eval]
    · simp only [executeOne, evaluate_pending h (calm e rfl), eval]
      rfl
  | out e =>
    rcases eval : run.evaluate e with ⟨ending | value, after⟩
    · simp only [executeOne, evaluate_pending h (calm e rfl), eval]
    · simp only [executeOne, evaluate_pending h (calm e rfl), eval, emit_pending]
  | print text => simp only [executeOne, emit_pending]

/-- A statement whose evaluation has to wait ends an interrupted run, and reports nothing. -/
theorem executeOne_pending_of_waits (le : n ≤ run.events.length) {stmt : Stmt} {e : Expr}
    (evaluates : stmt.expr? = some e)
    (waits : ((e.eval [run.globals] .ret).advance run.desk).1.waits = true) :
    ∃ after, (run.pending n).executeOne (.taskAt n) stmt = (.error .interrupted, after) ∧
      after.events = run.events := by
  obtain ⟨after, eval⟩ := evaluate_pending_of_waits le waits
  have silent : after.events = (run.pending n).events := events_evaluate eval
  refine ⟨after, ?_, silent⟩
  cases stmt with
  | var name e' =>
    cases evaluates
    simp only [executeOne, eval]
  | out e' =>
    cases evaluates
    simp only [executeOne, eval]
  | print text => cases evaluates

/-! ## What an interruption does to a program -/

/-- A statement in which the run does not have to wait. -/
theorem execute_singleton_pending (h : run.Alone) {stmt : Stmt}
    (calm : n ≤ run.events.length → ¬run.WaitsIn stmt) :
    (run.pending n).execute (.taskAt n) [stmt] =
      ((run.execute .never [stmt]).1, (run.execute .never [stmt]).2.pending n) := by
  have passed_alone : Alone { run with desk := run.desk.pass } := h.withDesk h.not_asked
  have pass := passStatement_pending (n := n) h fun le =>
    Bool.eq_false_iff.2 fun due => calm le (.inl due)
  have one : Run.executeOne (.taskAt n) (pending n { run with desk := run.desk.pass }) stmt = _ :=
    executeOne_pending passed_alone fun e evaluates le =>
      Bool.eq_false_iff.2 fun waits => calm le (.inr ⟨e, evaluates, waits⟩)
  simp only [execute, pass, h.passStatement, one]
  rcases Run.executeOne .never { run with desk := run.desk.pass } stmt with ⟨_ | _, after⟩
  · rfl
  · rfl

/-- A statement in which the run has to wait. -/
theorem execute_cons_pending_of_waitsIn (h : run.Alone) (le : n ≤ run.events.length) {stmt : Stmt}
    (waits : run.WaitsIn stmt) (program : Program) :
    ∃ last, (run.pending n).execute (.taskAt n) (stmt :: program) = (.interrupted, last) ∧
      last.events = run.events := by
  by_cases due : run.desk.pass.checkpoint.isDue = true
  · obtain ⟨left, struck, events⟩ := passStatement_pending_of_due h le due
    simp only [execute, struck]
    exact ⟨left, rfl, events⟩
  · obtain ⟨e, evaluates, waits⟩ := waits.resolve_left due
    have passed_le : n ≤ (Run.events { run with desk := run.desk.pass }).length := le
    obtain ⟨after, one, events⟩ := executeOne_pending_of_waits passed_le evaluates waits
    simp only [execute, passStatement_pending h fun _ => Bool.eq_false_iff.2 due, one]
    exact ⟨after, rfl, events⟩

/-- A run that does not have to wait behind the `n`-th event does not notice that its task is
interrupted there. -/
theorem execute_of_not_waitsFrom (h : run.Alone) {program : Program}
    (calm : ¬WaitsFrom n run program) :
    (run.pending n).execute (.taskAt n) program =
      ((run.execute .never program).1, (run.execute .never program).2.pending n) := by
  induction program generalizing run with
  | nil => rfl
  | cons stmt program ih =>
    rw [waitsFrom_cons, not_or, not_and] at calm
    have one := execute_singleton_pending h calm.1
    rcases alone : run.execute .never [stmt] with ⟨ending, after⟩
    rw [alone] at one
    rw [← List.singleton_append]
    by_cases completed : ending = .completed
    · subst completed
      have after_alone := h.execute [stmt]
      rw [alone] at after_alone
      rw [execute_append_of_completed _ one, execute_append_of_completed _ alone]
      exact ih after_alone fun waits => calm.2 ⟨after, alone, waits⟩
    · rw [execute_append_of_ended _ (by rwa [one]), execute_append_of_ended _ (by rwa [alone]), one,
        alone]

/-- A run that has to wait behind the `n`-th event ends where it first has to, if its task is
interrupted there. -/
theorem execute_of_waitsFrom (h : run.Alone) {program : Program} (waits : WaitsFrom n run program) :
    ∃ before later mid last, program = before ++ later ∧
      run.execute .never before = (.completed, mid) ∧ n ≤ mid.events.length ∧
      (run.pending n).execute (.taskAt n) program = (.interrupted, last) ∧
      last.events = mid.events := by
  induction program generalizing run with
  | nil =>
    obtain ⟨before, stmt, later, -, split, -⟩ := waits
    simp at split
  | cons stmt program ih =>
    by_cases here : n ≤ run.events.length ∧ run.WaitsIn stmt
    · obtain ⟨last, struck, events⟩ := execute_cons_pending_of_waitsIn h here.1 here.2 program
      exact ⟨[], stmt :: program, run, last, rfl, rfl, here.1, struck, events⟩
    · -- The first statement is executed to its end, and the run has to wait behind it.
      obtain ⟨after, alone, later_waits⟩ := (waitsFrom_cons.1 waits).resolve_left here
      have one := execute_singleton_pending h (not_and.1 here)
      have after_alone := h.execute [stmt]
      rw [alone] at one after_alone
      obtain ⟨before, later, mid, last, rfl, executed, le, struck, events⟩ :=
        ih after_alone later_waits
      refine ⟨stmt :: before, later, mid, last, rfl,
        execute_cons_eq_completed.2 ⟨after, alone, executed⟩, le, ?_, events⟩
      rw [← List.singleton_append, execute_append_of_completed _ one, struck]

/-! ## Runs -/

/-- The start and the outputs are reported before any ending. -/
theorem started_or_output_of_mem_execute (program : Program) {event : Event}
    (h : event ∈ ((started .never).execute .never program).2.events) :
    event = .started ∨ ∃ message, event = .output message := by
  obtain ⟨outputs, executed⟩ := events_execute .never (started .never) program
  rw [executed, List.mem_append, List.mem_reverse, List.mem_map] at h
  rcases h with ⟨message, -, rfl⟩ | h
  · exact .inr ⟨message, rfl⟩
  · exact .inl (List.mem_singleton.1 h)

/-- An error is not reported together with a cancellation. -/
theorem not_error_of_cancelled {events : List Event} (h : Event.Lifecycle events)
    (cancelled : .cancelled ∈ events) (message : Text) : .error message ∉ events := by
  obtain ⟨outputs, ends⟩ := h
  cases ends <;> simp_all

/-- The start is an event at which the task may be interrupted. -/
theorem started_taskAt (pos : 0 < n) : started (.taskAt n) = (started .never).pending n := by
  have fresh : fresh (.taskAt n) = (fresh .never).pending n := by
    simp only [Run.fresh, pending, List.length_nil, Nat.le_zero, Nat.ne_of_gt pos, decide_false]
    rfl
  rw [started, fresh, emit_pending]
  rfl

/-- A run that does not have to wait behind the event at which it is interrupted ends as if it were
left alone. -/
theorem interpret_taskAt_of_not_waitsAfter (pos : 0 < n) {text : Text}
    (calm : ¬WaitsAfter text n) :
    (interpret (.taskAt n) text).events = eventsOf text ∧
      (interpret (.taskAt n) text).ending = (interpret .never text).ending := by
  cases parsed : Program.ofText text with
  | error failure =>
    rw [eventsOf, events_interpret_of_error _ parsed, events_interpret_of_error _ parsed, interpret,
      interpret, parsed]
    exact ⟨rfl, rfl⟩
  | ok program =>
    have executed := execute_of_not_waitsFrom alone_started
      fun waits => calm ⟨program, parsed, waits⟩
    rw [eventsOf, events_interpret_of_ok _ parsed, events_interpret_of_ok _ parsed,
      ending_interpret_of_ok _ parsed, ending_interpret_of_ok _ parsed, started_taskAt pos, executed]
    exact ⟨rfl, rfl⟩

/-- A run that has to wait behind the event at which it is interrupted ends as interrupted. -/
theorem interpret_taskAt_of_waitsAfter (pos : 0 < n) {text : Text} (waits : WaitsAfter text n) :
    (interpret (.taskAt n) text).ending = .interrupted ∧
      ∃ k, n ≤ k ∧ k ≤ (eventsOf text).length ∧
        (interpret (.taskAt n) text).events = (eventsOf text).take k ++ [.cancelled] ∧
        ∀ event ∈ (eventsOf text).take k,
          event = .started ∨ ∃ message, event = .output message := by
  obtain ⟨program, parsed, waits⟩ := waits
  obtain ⟨before, later, mid, last, rfl, executed, le, struck, events⟩ :=
    execute_of_waitsFrom alone_started waits
  -- What the statements before the place where the run waits have reported comes first in any case.
  have whole : eventsOf text =
      (mid.execute .never later).2.events.reverse ++ (mid.execute .never later).1.events := by
    rw [eventsOf, events_interpret_of_ok _ parsed, execute_append_of_completed _ executed]
  have front : (eventsOf text).take mid.events.length = mid.events.reverse := by
    rw [whole, take_events_execute]
  have long : mid.events.length ≤ (eventsOf text).length := by
    have short := congrArg List.length front
    rw [List.length_take, List.length_reverse] at short
    omega
  refine ⟨?_, mid.events.length, le, long, ?_, fun event mem => ?_⟩
  · rw [ending_interpret_of_ok _ parsed, started_taskAt pos, struck]
  · rw [front, events_interpret_of_ok _ parsed, started_taskAt pos, struck, events]
    rfl
  · rw [front, List.mem_reverse] at mem
    exact started_or_output_of_mem_execute before (by rwa [executed])

/-- The task of a run that comes to the event at which it is interrupted ends as interrupted. If the
interruption does not strike in the statements, it is pending behind the last event. -/
theorem interrupted_interpret_taskAt (pos : 0 < n) {text : Text} (le : n ≤ (eventsOf text).length) :
    (interpret (.taskAt n) text).interrupted = true := by
  cases parsed : Program.ofText text with
  | error failure =>
    rw [eventsOf, events_interpret_of_error _ parsed] at le
    rw [interrupted_interpret_of_error _ parsed, started_taskAt pos, interrupted_foldl_emit_pending]
    exact decide_eq_true le
  | ok program =>
    rw [interrupted_interpret_of_ok _ parsed, started_taskAt pos, Bool.or_eq_true]
    by_cases waits : WaitsFrom n (started .never) program
    · obtain ⟨_, _, _, _, -, -, -, struck, -⟩ := execute_of_waitsFrom alone_started waits
      rw [struck]
      exact .inl rfl
    · rw [eventsOf, events_interpret_of_ok _ parsed, List.length_append, List.length_reverse,
        Nat.add_comm] at le
      rw [execute_of_not_waitsFrom alone_started waits, interrupted_foldl_emit_pending]
      exact .inr (decide_eq_true le)

/-- A run whose task is interrupted right after its `n`-th event: the task ends as cancelled, be it
that the run ends as interrupted, which it does if and only if it has to wait behind that event when
it is left alone, or that it ends as it would have done alone and is interrupted too late. The
events are those of the run that is left alone if and only if that does not have to wait behind its
`n`-th event; otherwise they are the first `k` of them, for some `k` that is at least `n`, all of
them the start or outputs, and then that the run was cancelled. An error and a cancellation are
never reported together. -/
theorem events_interpret_taskAt {text : Text} (pos : 0 < n) (le : n ≤ (eventsOf text).length) :
    (interpret (.taskAt n) text).interrupted = true ∧
      ((interpret (.taskAt n) text).ending = .interrupted ↔ WaitsAfter text n) ∧
      (¬WaitsAfter text n →
        (interpret (.taskAt n) text).ending = (interpret .never text).ending) ∧
      ((interpret (.taskAt n) text).events = eventsOf text ↔ ¬WaitsAfter text n) ∧
      (WaitsAfter text n → ∃ k, n ≤ k ∧ k ≤ (eventsOf text).length ∧
        (interpret (.taskAt n) text).events = (eventsOf text).take k ++ [.cancelled] ∧
        ∀ event ∈ (eventsOf text).take k,
          event = .started ∨ ∃ message, event = .output message) ∧
      (.cancelled ∈ (interpret (.taskAt n) text).events →
        ∀ message, .error message ∉ (interpret (.taskAt n) text).events) := by
  have struck (waits : WaitsAfter text n) := interpret_taskAt_of_waitsAfter pos waits
  have spared (calm : ¬WaitsAfter text n) := interpret_taskAt_of_not_waitsAfter pos calm
  refine ⟨interrupted_interpret_taskAt pos le, ⟨fun interrupted => ?_, fun waits => (struck waits).1⟩,
    fun calm => (spared calm).2, ⟨fun same waits => ?_, fun calm => (spared calm).1⟩,
    fun waits => (struck waits).2, not_error_of_cancelled (lifecycle_interpret _ text)⟩
  · by_contra calm
    rw [(spared calm).2] at interrupted
    exact ending_interpret_never_ne_interrupted text interrupted
  · obtain ⟨-, k, -, -, events, -⟩ := struck waits
    refine cancelled_notMem_eventsOf text ?_
    rw [← same, events]
    exact List.mem_append.2 (.inr (List.mem_singleton_self _))

/-- Both operands of the sum fail, but they are handed out as parts, and the run that waits for them
has been interrupted at the output before. -/
theorem events_interpret_taskAt_before_join :
    0 < 2 ∧ 2 ≤ (eventsOf "print \"a\" out -x + -y").length ∧
      WaitsAfter "print \"a\" out -x + -y" 2 ∧
      (interpret (.taskAt 2) "print \"a\" out -x + -y").interrupted = true ∧
      (interpret (.taskAt 2) "print \"a\" out -x + -y").ending = .interrupted ∧
      (interpret (.taskAt 2) "print \"a\" out -x + -y").events =
        [.started, .output "a", .cancelled] := by
  have parsed : Program.ofText "print \"a\" out -x + -y" =
      .ok [.print "a", .out (.binary (.negate (.ident "x")) "+" (.negate (.ident "y")))] := by
    have scanned : Token.scan "print \"a\" out -x + -y" =
        [⟨.print, "print", 0⟩, ⟨.string, "\"a\"", 6⟩, ⟨.out, "out", 10⟩, ⟨.minus, "-", 14⟩,
          ⟨.ident, "x", 15⟩, ⟨.plus, "+", 17⟩, ⟨.minus, "-", 19⟩, ⟨.ident, "y", 20⟩] := by
      decide +kernel
    rw [Program.ofText, scanned]
    rfl
  have waits : WaitsAfter "print \"a\" out -x + -y" 2 :=
    ⟨_, parsed, [.print "a"], _, [], _, rfl, rfl, by decide, .inr ⟨_, rfl, rfl⟩⟩
  obtain ⟨fault, -, events⟩ := eventsOf_of_ofText parsed
  have whole : eventsOf "print \"a\" out -x + -y" =
      [.started, .output "a", .error fault.message, .completed] := events
  have long : 2 ≤ (eventsOf "print \"a\" out -x + -y").length := by
    rw [whole]
    exact Nat.le_add_left 2 2
  obtain ⟨interrupted, ending, -, -, cut, -⟩ := events_interpret_taskAt (by decide) long
  refine ⟨by decide, long, waits, interrupted, ending.2 waits, ?_⟩
  obtain ⟨k, two_le, -, events, plain⟩ := cut waits
  -- The error is the third event, and none of those before the cut is one.
  have short : k = 2 := by
    by_contra more
    obtain ⟨j, rfl⟩ : ∃ j, k = j + 3 := ⟨k - 3, by omega⟩
    have mem : Event.error fault.message ∈ (eventsOf "print \"a\" out -x + -y").take (j + 3) := by
      rw [whole]
      simp
    simpa using plain _ mem
  rw [events, short, whole]
  rfl

end Run

end RangeCalc
