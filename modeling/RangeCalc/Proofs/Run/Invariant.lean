import RangeCalc.Proofs.Eval.Invariant
import RangeCalc.Proofs.Run.Interruption

/-!
# The values of a run

The statements of a parsed program have known operators, and the global frame has proper values at
the start, since it is empty, and after every statement, since what an expression comes to is
proper. So every evaluation of a run starts in a sound scope, and what is to be seen of it is as
expected, whenever and however the run is cancelled.

* `Program.Known`: all operators of a program are known, as they are if it was parsed;
* `Run.watch`: the evaluation of an expression at a point of a run, in sight;
* `Run.proper_execute`: the statements keep the global frame proper;
* `Run.values_proper`: the values of every run of a text.
-/

namespace RangeCalc

open Loop

/-! ## Parsed programs -/

/-- The operators of a program are those that there are. -/
def Program.Known (program : Program) : Prop :=
  ∀ stmt ∈ program, ∀ e, stmt.expr? = some e → e.Known

/-- A statement whose operators are spelled as such. -/
theorem Stmt.Derives.known {tokens : List Token} {stmt : Stmt} (h : Stmt.Derives tokens stmt)
    (spelled : ∀ token ∈ tokens, ∀ op, token.kind.operator? = some op → token.text = op) {e : Expr}
    (evaluated : stmt.expr? = some e) : e.Known := by
  cases h with
  | var _ _ _ _ expr =>
    cases evaluated
    exact expr.known fun token mem => spelled token (by simp [mem])
  | out _ _ expr =>
    cases evaluated
    exact expr.known fun token mem => spelled token (List.mem_cons_of_mem _ mem)
  | print => cases evaluated

theorem Program.Derives.known {tokens : List Token} {program : Program}
    (h : Program.Derives tokens program)
    (spelled : ∀ token ∈ tokens, ∀ op, token.kind.operator? = some op → token.text = op) :
    program.Known := by
  induction h with
  | nil => exact List.forall_mem_nil _
  | cons first _ ih =>
    obtain ⟨here, later⟩ := List.forall_mem_append.1 spelled
    exact List.forall_mem_cons.2 ⟨fun _ => first.known here, ih later⟩

/-- A program that was parsed has known operators. -/
theorem Program.known_of_ofText {text : Text} {program : Program}
    (parsed : Program.ofText text = .ok program) : program.Known :=
  (Program.ofText_eq_ok_iff.1 parsed).known fun _ mem _ => Token.text_of_operator? mem

/-- A run does not end for an unknown operator. -/
def Ending.Possible : Ending → Prop
  | .failed (.fault fault) => fault.Possible
  | _ => True

/-- What a step of a run comes to: a result with `V`, or an ending that is possible. -/
def Ending.Allows {β : Type} (V : β → Prop) : Except Ending β → Prop
  | .ok result => V result
  | .error ending => ending.Possible

namespace Run

variable {plan : Cancellation} {run : Run}

/-! ## Evaluations -/

/-- Evaluates an expression in the global frame, in sight. -/
def watch (run : Run) (e : Expr) : Loop.Report Watched Failure Value :=
  Loop.run run.interrupted (e.watch [run.globals] .ret) run.desk.watched

/-- What one who watches an evaluation finds, in a run with a proper global frame. -/
theorem watch_spec {e : Expr} (known : e.Known) (proper : run.globals.Proper) :
    (run.watch e).plain = Loop.run run.interrupted (e.eval [run.globals] .ret) run.desk ∧
      (∀ sight ∈ (run.watch e).desk.sights, sight.Fine) ∧
      (run.watch e).outcome.Within Value.Proper (Failure.Within Fault.Possible) := by
  have watched := run_watches (Expr.watches_eval known (.globals proper)) run.interrupted
    (Desk.shows_watched Sight.Fine run.desk)
  rwa [Desk.plain_watched] at watched

/-- An expression comes to a proper value, and a run that it ends does not end for an unknown
operator. -/
theorem proper_evaluate {e : Expr} (known : e.Known) (proper : run.globals.Proper) :
    Ending.Allows Value.Proper (run.evaluate e).1 := by
  obtain ⟨same, -, within⟩ := watch_spec known proper
  simp only [evaluate, heed, ← same, Report.plain]
  generalize (run.watch e).outcome = outcome at within
  rcases outcome with ((fault | _) | _) | value
  · exact within
  · exact trivial
  · exact trivial
  · exact within

/-! ## Statements -/

/-- A statement keeps the global frame proper. -/
theorem proper_executeOne (plan : Cancellation) {stmt : Stmt}
    (known : ∀ e, stmt.expr? = some e → e.Known) (proper : run.globals.Proper) :
    (run.executeOne plan stmt).2.globals.Proper ∧
      Ending.Allows (fun _ => True) (run.executeOne plan stmt).1 := by
  have frame (e : Expr) : (run.evaluate e).2.globals = run.globals := rfl
  cases stmt with
  | print text => exact ⟨proper, trivial⟩
  | var name e =>
    have evaluated := proper_evaluate (known e rfl) proper
    rw [← frame e] at proper
    rw [executeOne]
    generalize run.evaluate e = result at evaluated proper
    rcases result with ⟨ending | value, after⟩
    · exact ⟨proper, evaluated⟩
    · exact ⟨List.forall_mem_cons.2 ⟨evaluated, proper⟩, trivial⟩
  | out e =>
    have evaluated := proper_evaluate (known e rfl) proper
    rw [← frame e] at proper
    rw [executeOne]
    generalize run.evaluate e = result at evaluated proper
    rcases result with ⟨ending | value, after⟩
    · exact ⟨proper, evaluated⟩
    · exact ⟨proper, trivial⟩

/-- A program keeps the global frame proper, however it ends. -/
theorem proper_execute (plan : Cancellation) {program : Program} (known : program.Known)
    (proper : run.globals.Proper) :
    (run.execute plan program).2.globals.Proper ∧ (run.execute plan program).1.Possible := by
  fun_induction execute plan run program with
  | case1 run => exact ⟨proper, trivial⟩
  | case2 run stmt program ending left pass =>
    refine ⟨by rwa [(frame_of_passStatement pass).2.1], ?_⟩
    rcases ending_of_passStatement pass with rfl | rfl
    · exact trivial
    · exact trivial
  | case3 run stmt program passed pass after one ih =>
    obtain ⟨here, later⟩ := List.forall_mem_cons.1 known
    have passed_proper : passed.globals.Proper := by rwa [eq_of_passStatement pass]
    have kept := proper_executeOne plan here passed_proper
    rw [one] at kept
    exact ih later kept.1
  | case4 run stmt program passed pass ending after one =>
    obtain ⟨here, -⟩ := List.forall_mem_cons.1 known
    have passed_proper : passed.globals.Proper := by rwa [eq_of_passStatement pass]
    have kept := proper_executeOne plan here passed_proper
    rwa [one] at kept

/-! ## Runs of a text -/

/-- The run of a text under the plan comes, in the state `run`, to the evaluation of `e`. -/
def Evaluates (plan : Cancellation) (text : Text) (run : Run) (e : Expr) : Prop :=
  ∃ program before stmt later mid, Program.ofText text = .ok program ∧
    program = before ++ stmt :: later ∧ (started plan).execute plan before = (.completed, mid) ∧
    mid.passStatement = (.ok (), run) ∧ stmt.expr? = some e

theorem proper_started (plan : Cancellation) : (started plan).globals.Proper :=
  List.forall_mem_nil _

/-- Between any two statements the global frame is proper. -/
theorem proper_of_ofText (plan : Cancellation) {text : Text} {before later : Program}
    (parsed : Program.ofText text = .ok (before ++ later)) :
    ((started plan).execute plan before).2.globals.Proper := by
  have known := Program.known_of_ofText parsed
  refine (proper_execute plan (fun stmt mem => known stmt ?_) (proper_started plan)).1
  exact List.mem_append.2 (.inl mem)

/-- A run comes to evaluations of known operators in proper frames only. -/
theorem Evaluates.known_and_proper {text : Text} {e : Expr} (h : Evaluates plan text run e) :
    e.Known ∧ run.globals.Proper := by
  obtain ⟨_, before, stmt, later, mid, parsed, rfl, executed, pass, evaluated⟩ := h
  refine ⟨Program.known_of_ofText parsed stmt (by simp) e evaluated, ?_⟩
  have proper := proper_of_ofText plan parsed
  rw [executed] at proper
  rwa [eq_of_passStatement pass]

/-- The values of a run, whatever the text and however it is cancelled. Between any two statements,
those bound in the global frame are numbers or sequences of integers that are not empty. One who
watches an evaluation, and does not change it by that, sees that expressions come to such values,
that the bodies of lambdas are evaluated in scopes with such values in the global frame and numbers
in the others, and that no text is negated, no unknown operator is applied and no empty sequence is
reduced. Nor does the run end for an unknown operator. -/
theorem values_proper (plan : Cancellation) (text : Text) :
    (∀ before later, Program.ofText text = .ok (before ++ later) →
      ((started plan).execute plan before).2.globals.Proper) ∧
    (∀ run e, Evaluates plan text run e →
      (run.watch e).plain = Loop.run run.interrupted (e.eval [run.globals] .ret) run.desk ∧
        (∀ sight ∈ (run.watch e).desk.sights, sight.Fine) ∧
        (run.watch e).outcome.Within Value.Proper (Failure.Within Fault.Possible)) ∧
    (interpret plan text).ending.Possible := by
  refine ⟨fun before later => proper_of_ofText plan, fun run e h => ?_, ?_⟩
  · obtain ⟨known, proper⟩ := h.known_and_proper
    exact watch_spec known proper
  · rw [interpret]
    cases parsed : Program.ofText text with
    | error failure => exact trivial
    | ok program =>
      exact (proper_execute plan (Program.known_of_ofText parsed) (proper_started plan)).2

/-- The second statement negates a range, in front of which the run has reported two events. -/
theorem values_proper_of_negated_range :
    ∃ run e, Evaluates .never "print \"a\" out -(\x7b1, 2\x7d)" run e ∧
      e = .negate (.range (.number (Number.ofDecimal 1 0)) (.number (Number.ofDecimal 2 0))) ∧
      run.events = [.output "a", .started] ∧
      (∀ sight ∈ (run.watch e).desk.sights, sight.Fine) ∧
      (run.watch e).outcome.Within Value.Proper (Failure.Within Fault.Possible) := by
  have parsed : Program.ofText "print \"a\" out -(\x7b1, 2\x7d)" =
      .ok [.print "a", .out (.negate (.range (.number (Number.ofDecimal 1 0))
        (.number (Number.ofDecimal 2 0))))] := by
    have scanned : Token.scan "print \"a\" out -(\x7b1, 2\x7d)" =
        [⟨.print, "print", 0⟩, ⟨.string, "\"a\"", 6⟩, ⟨.out, "out", 10⟩, ⟨.minus, "-", 14⟩,
          ⟨.lpar, "(", 15⟩, ⟨.lbrace, "\x7b", 16⟩, ⟨.number, "1", 17⟩, ⟨.comma, ",", 18⟩,
          ⟨.number, "2", 20⟩, ⟨.rbrace, "\x7d", 21⟩, ⟨.rpar, ")", 22⟩] := by
      decide +kernel
    rw [Program.ofText, scanned]
    rfl
  have evaluates : Evaluates .never "print \"a\" out -(\x7b1, 2\x7d)" _ _ :=
    ⟨_, [.print "a"], _, [], _, parsed, rfl, rfl, rfl, rfl⟩
  obtain ⟨-, evaluations, -⟩ := values_proper .never "print \"a\" out -(\x7b1, 2\x7d)"
  exact ⟨_, _, evaluates, rfl, rfl, (evaluations _ _ evaluates).2⟩

end Run

end RangeCalc
