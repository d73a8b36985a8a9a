import RangeCalc.Proofs.Run.Refinement

/-!
# A token that is set at an event

A run looks at its token before every statement, and again wherever an evaluation passes a
checkpoint or a compound expression. A token that is set right after an event, however, is set
between two statements, as an event is the last thing that a statement does. So it is found set
before the next statement, if there is one, and no evaluation ever meets it: the run is cut right
behind the event. Behind the last statement nobody looks at the token any more.

* `Run.execute_tokenAt`: a run whose token is set at the `n`-th event goes through a program as if
  it were left alone, up to the statement that reports that event;
* `Run.events_interpret_tokenAt`: the events of such a run are those of the run that is left alone,
  cut behind the `n`-th if a statement is still to be executed.
-/

namespace RangeCalc

/-- The token is set right after the `n`-th event. -/
def Cancellation.tokenAt (n : Nat) : Cancellation := ⟨false, some n, none⟩

/-- The token is set from the start. -/
def Cancellation.tokenBefore : Cancellation := ⟨true, none, none⟩

/-- Whether a statement reports an event when it is executed. -/
def Stmt.reports : Stmt → Bool
  | var _ _ => false
  | out _ => true
  | print _ => true

namespace Run

/-- A statement is still to be executed right after the `n`-th event of a run that is left alone:
the event is the start and there is a statement, or it is the output of a statement that is not the
last. The outputs are those of the statements that report, one each and in order. -/
inductive Unfinished (text : Text) : Nat → Prop
  | started {program : Program} :
      Program.ofText text = .ok program → program ≠ [] → Unfinished text 1
  | output (before : Program) (stmt : Stmt) (later : Program) (message : Text) :
      Program.ofText text = .ok (before ++ stmt :: later) → later ≠ [] → stmt.reports = true →
      (eventsOf text)[before.countP Stmt.reports + 1]? = some (.output message) →
      Unfinished text (before.countP Stmt.reports + 2)

/-! ## Setting the token -/

/-- The run with its token set. -/
def asked (run : Run) : Run :=
  { run with desk := { run.desk with checkpoint := run.desk.checkpoint.cancel } }

/-- A run whose token is set does not get to another statement. -/
theorem execute_asked (plan : Cancellation) (run : Run) {program : Program} (h : program ≠ []) :
    run.asked.execute plan program = (.stopped, run.asked) := by
  cases program with
  | nil => exact absurd rfl h
  | cons stmt program => rfl

variable {n : Nat} {run after : Run}

/-- An event sets the token if it is the `n`-th. -/
theorem emit_tokenAt (run : Run) (event : Event) :
    run.emit (.tokenAt n) event =
      if run.events.length + 1 = n then (run.emit .never event).asked
      else run.emit .never event := by
  simp only [emit, Cancellation.tokenAt, Cancellation.never, List.length_cons, Option.some.injEq,
    eq_comm (a := n)]
  split
  · rfl
  · rfl

/-! ## Statements -/

/-- A statement that is executed to its end reports an output, if it is one that reports. -/
theorem events_of_executeOne_eq_ok {stmt : Stmt}
    (h : run.executeOne .never stmt = (.ok (), after)) :
    (∃ message, stmt.reports = true ∧ after.events = .output message :: run.events) ∨
      stmt.reports = false ∧ after.events = run.events := by
  cases stmt with
  | var name e =>
    refine .inr ⟨rfl, ?_⟩
    rcases eval : run.evaluate e with ⟨_ | value, evaluated⟩
    · simp [executeOne, eval] at h
    · simp only [executeOne, eval, Prod.mk.injEq, true_and] at h
      rw [← h, events_evaluate eval]
  | out e =>
    refine .inl ?_
    rcases eval : run.evaluate e with ⟨_ | value, evaluated⟩
    · simp [executeOne, eval] at h
    · simp only [executeOne, eval, Prod.mk.injEq, true_and] at h
      exact ⟨value.text, rfl, by rw [← h, events_emit, events_evaluate eval]⟩
  | print text =>
    simp only [executeOne, Prod.mk.injEq, true_and] at h
    exact .inl ⟨text, rfl, by rw [← h, events_emit]⟩

/-- A statement that is executed to its end counts if it is one that reports. -/
theorem length_of_executeOne_eq_ok {stmt : Stmt}
    (h : run.executeOne .never stmt = (.ok (), after)) :
    after.events.length = run.events.length + [stmt].countP Stmt.reports := by
  rcases events_of_executeOne_eq_ok h with ⟨message, reports, events⟩ | ⟨silent, events⟩
  · simp [events, reports]
  · simp [events, silent]

/-- A statement that ends the run reports nothing. -/
theorem events_of_executeOne_eq_error {stmt : Stmt} {ending : Ending}
    (h : run.executeOne .never stmt = (.error ending, after)) : after.events = run.events := by
  cases stmt with
  | var name e =>
    rcases eval : run.evaluate e with ⟨_ | value, evaluated⟩
    · simp only [executeOne, eval, Prod.mk.injEq] at h
      rw [← h.2, events_evaluate eval]
    · simp [executeOne, eval] at h
  | out e =>
    rcases eval : run.evaluate e with ⟨_ | value, evaluated⟩
    · simp only [executeOne, eval, Prod.mk.injEq] at h
      rw [← h.2, events_evaluate eval]
    · simp [executeOne, eval] at h
  | print text => simp [executeOne] at h

/-- A statement does what it does in a run that is left alone, and its event sets the token if it is
the `n`-th. -/
theorem executeOne_tokenAt (h : run.events.length < n) (stmt : Stmt) :
    run.executeOne (.tokenAt n) stmt =
      ((run.executeOne .never stmt).1,
        if (run.executeOne .never stmt).2.events.length = n then
          (run.executeOne .never stmt).2.asked
        else (run.executeOne .never stmt).2) := by
  have silent : ∀ {evaluated : Run}, evaluated.events = run.events →
      evaluated.events.length ≠ n := by
    intro evaluated same
    rw [same]
    exact Nat.ne_of_lt h
  cases stmt with
  | var name e =>
    rcases eval : run.evaluate e with ⟨_ | value, evaluated⟩
    · simp only [executeOne, eval, silent (events_evaluate eval), if_false]
    · simp only [executeOne, eval, silent (events_evaluate eval), if_false]
  | out e =>
    rcases eval : run.evaluate e with ⟨_ | value, evaluated⟩
    · simp only [executeOne, eval, silent (events_evaluate eval), if_false]
    · simp only [executeOne, eval, emit_tokenAt, events_emit, List.length_cons]
  | print text =>
    simp only [executeOne, emit_tokenAt, events_emit, List.length_cons]
    rfl

/-! ## Programs -/

/-- The statement `stmt` of a program, with `before` in front of it and `later` behind it, reports
the `n`-th event. It is executed as in a run that is left alone, and leaves the run `last`; then the
token is set, and the run goes on with the other statements. -/
structure CutBehind (n : Nat) (run last : Run) (before : Program) (stmt : Stmt) (later : Program) :
    Prop where
  reports : stmt.reports = true
  count : run.events.length + before.countP Stmt.reports + 1 = n
  length : last.events.length = n
  newest : ∃ message older, last.events = .output message :: older
  alone : run.execute .never (before ++ stmt :: later) = last.execute .never later
  cut : run.execute (.tokenAt n) (before ++ stmt :: later) = last.asked.execute (.tokenAt n) later

/-- A statement that is executed to its end is followed by the others. -/
theorem execute_cons {plan : Cancellation} {passed : Run} {stmt : Stmt}
    (pass : run.passStatement = (.ok (), passed))
    (one : passed.executeOne plan stmt = (.ok (), after))
    (later : Program) : run.execute plan (stmt :: later) = after.execute plan later := by
  simp only [execute, pass, one]

/-- If the run comes to the event behind its first statement, it is that event of the whole. -/
theorem CutBehind.cons {last passed : Run} {before later : Program} {stmt first : Stmt}
    (h : CutBehind n after last before stmt later) (pass : run.passStatement = (.ok (), passed))
    (alone : passed.executeOne .never first = (.ok (), after))
    (cut : passed.executeOne (.tokenAt n) first = (.ok (), after)) :
    CutBehind n run last (first :: before) stmt later where
  reports := h.reports
  count := by
    rw [← h.count, length_of_executeOne_eq_ok alone, (frame_of_passStatement pass).1,
      List.countP_cons, List.countP_singleton]
    omega
  length := h.length
  newest := h.newest
  alone := (execute_cons pass alone _).trans h.alone
  cut := (execute_cons pass cut _).trans h.cut

/-- A run whose token is set at the `n`-th event goes through a program as if it were left alone, if
it does not come to that event, and up to the statement that reports it, if it does. -/
theorem execute_tokenAt (h : run.events.length < n) (program : Program) :
    (run.execute (.tokenAt n) program = run.execute .never program ∧
        (run.execute .never program).2.events.length < n) ∨
      ∃ last before stmt later, program = before ++ stmt :: later ∧
        CutBehind n run last before stmt later := by
  induction program generalizing run with
  | nil => exact .inl ⟨rfl, h⟩
  | cons stmt program ih =>
    rcases pass : run.passStatement with ⟨ending | ⟨⟩, passed⟩
    · refine .inl ?_
      simp only [execute, pass, true_and]
      rwa [(frame_of_passStatement pass).1]
    · -- The checkpoint is no event.
      have unheard : passed.events.length < n := by rwa [(frame_of_passStatement pass).1]
      have cut := executeOne_tokenAt unheard stmt
      rcases one : passed.executeOne .never stmt with ⟨ending | ⟨⟩, after⟩
      · have silent := events_of_executeOne_eq_error one
        rw [one, if_neg (by rw [silent]; exact Nat.ne_of_lt unheard)] at cut
        refine .inl ?_
        simp only [execute, pass, one, cut, silent, true_and]
        exact unheard
      · rw [one] at cut
        by_cases hit : after.events.length = n
        · -- The token is set behind this statement, which is one that reports.
          rw [if_pos hit] at cut
          rcases events_of_executeOne_eq_ok one with ⟨message, reports, events⟩ | ⟨-, events⟩
          · refine .inr ⟨after, [], stmt, program, rfl, reports, ?_, hit, ⟨message, _, events⟩,
              execute_cons pass one program, execute_cons pass cut program⟩
            rw [← hit, events, (frame_of_passStatement pass).1]
            rfl
          · rw [events] at hit
            exact absurd hit (Nat.ne_of_lt unheard)
        · -- The event is still to come, and the run goes on as if it were left alone.
          rw [if_neg hit] at cut
          have still : after.events.length < n := by
            have := length_of_executeOne_eq_ok one
            have : [stmt].countP Stmt.reports ≤ 1 := List.countP_le_length
            omega
          rcases ih still with never | ⟨last, before, stmt', later, rfl, behind⟩
          · rw [execute_cons pass one, execute_cons pass cut]
            exact .inl never
          · exact .inr ⟨last, stmt :: before, stmt', later, rfl, behind.cons pass one cut⟩

/-! ## Tasks that nobody interrupts -/

section Uninterrupted

variable {plan : Cancellation} (never : plan.taskAfter = none)

include never

theorem interrupted_emit (run : Run) (event : Event) :
    (run.emit plan event).interrupted = run.interrupted := by
  have none : (Option.none == some (event :: run.events).length) = false := rfl
  rw [emit, never, none, Bool.or_false]

/-- No event of a task that nobody interrupts makes an interruption pending. -/
theorem interrupted_foldl_emit (events : List Event) (run : Run) :
    (events.foldl (emit plan) run).interrupted = run.interrupted := by
  induction events generalizing run with
  | nil => rfl
  | cons event events ih => rw [List.foldl_cons, ih, interrupted_emit never]

/-- A statement leaves no interruption pending if it finds none. -/
theorem interrupted_executeOne (h : run.interrupted = false) (stmt : Stmt) :
    (run.executeOne plan stmt).2.interrupted = false := by
  have evaluated (e : Expr) : (run.evaluate e).2.interrupted = false := by
    rw [evaluate, h]
    rfl
  cases stmt with
  | var name e =>
    have kept := evaluated e
    rw [executeOne]
    generalize run.evaluate e = result at kept
    rcases result with ⟨ending | value, after⟩
    · exact kept
    · exact kept
  | out e =>
    have kept := evaluated e
    rw [executeOne]
    generalize run.evaluate e = result at kept
    rcases result with ⟨ending | value, after⟩
    · exact kept
    · exact (interrupted_emit never _ _).trans kept
  | print text => exact (interrupted_emit never _ _).trans h

/-- Statements leave no interruption pending if they find none. -/
theorem interrupted_execute (h : run.interrupted = false) (program : Program) :
    (run.execute plan program).2.interrupted = false := by
  fun_induction execute plan run program with
  | case1 run => exact h
  | case2 run stmt program ending left pass => exact (frame_of_passStatement pass).2.2 h
  | case3 run stmt program passed pass after one ih =>
    have kept := interrupted_executeOne never ((frame_of_passStatement pass).2.2 h) stmt
    rw [one] at kept
    exact ih kept
  | case4 run stmt program passed pass ending after one =>
    have kept := interrupted_executeOne never ((frame_of_passStatement pass).2.2 h) stmt
    rwa [one] at kept

/-- A task that nobody interrupts returns, if the statements do not end as interrupted. -/
theorem interrupted_interpret_eq_false {text : Text}
    (returns : (interpret plan text).ending ≠ .interrupted) :
    (interpret plan text).interrupted = false := by
  have start : (started plan).interrupted = false := interrupted_emit never _ _
  cases parsed : Program.ofText text with
  | error failure =>
    rw [interrupted_interpret_of_error plan parsed, interrupted_foldl_emit never, start]
  | ok program =>
    rw [ending_interpret_of_ok plan parsed] at returns
    rw [interrupted_interpret_of_ok plan parsed, interrupted_foldl_emit never,
      interrupted_execute never start program, decide_eq_false returns]
    rfl

end Uninterrupted

/-! ## Runs -/

/-- The start sets the token if it is meant to, and is otherwise that of a run that is left
alone. -/
theorem started_tokenAt (n : Nat) :
    started (.tokenAt n) = if 1 = n then (started .never).asked else started .never :=
  emit_tokenAt (fresh .never) .started

/-- A token that is set before the run does what one does that is set at the start. -/
theorem interpret_tokenBefore (text : Text) :
    interpret .tokenBefore text = interpret (.tokenAt 1) text := by
  have start : (fresh .tokenBefore).emit .tokenBefore .started =
      (fresh (.tokenAt 1)).emit (.tokenAt 1) .started := rfl
  rw [interpret, interpret, start]
  cases Program.ofText text with
  | error failure => rfl
  | ok program =>
    cases program with
    | nil => rfl
    | cons stmt program => rfl

/-- The events so far are the first of the whole run. -/
theorem events_prefix_execute (run : Run) (program : Program) (ending : List Event) :
    run.events.reverse <+: (run.execute .never program).2.events.reverse ++ ending := by
  obtain ⟨outputs, executed⟩ := events_execute .never run program
  rw [executed, List.reverse_append, List.append_assoc]
  exact List.prefix_append _ _

/-- As many events as there are so far are those so far. -/
theorem take_events_execute (run : Run) (program : Program) (ending : List Event) :
    ((run.execute .never program).2.events.reverse ++ ending).take run.events.length =
      run.events.reverse := by
  have first := List.prefix_iff_eq_take.1 (run.events_prefix_execute program ending)
  rw [List.length_reverse] at first
  exact first.symm

section Parsed

variable {text : Text} {program : Program} (parsed : Program.ofText text = .ok program)

include parsed

/-- The start is behind a run that has a statement to execute. -/
theorem unfinished_one_iff : Unfinished text 1 ↔ program ≠ [] := by
  constructor
  · rintro (⟨parsed', some⟩ | _)
    rw [parsed] at parsed'
    cases parsed'
    exact some
  · exact fun some => .started parsed some

/-- If the statements come to an end before the `n`-th event, that event is none of theirs. -/
theorem not_unfinished_of_length_lt
    (h : ((started .never).execute .never program).2.events.length < n) : ¬Unfinished text n := by
  obtain ⟨outputs, executed⟩ := events_execute .never (started .never) program
  rintro (_ | ⟨_, _, _, _, -, -, -, reported⟩)
  · -- The start is before the statements.
    rw [executed, List.length_append] at h
    exact Nat.not_succ_le_self _ (Nat.le_of_add_left_le h)
  · -- An event behind the statements belongs to the ending, which has no outputs.
    rw [eventsOf, events_interpret_of_ok .never parsed, List.getElem?_append_right (by
      rw [List.length_reverse]
      omega)] at reported
    have mem := List.mem_of_getElem? reported
    cases ending : ((started .never).execute .never program).1 <;>
      simp [ending, Ending.events] at mem

end Parsed

/-- The last statement leaves none to be executed. -/
theorem CutBehind.not_unfinished {text : Text} {last : Run} {before : Program} {stmt : Stmt}
    (h : CutBehind n (started .never) last before stmt [])
    (parsed : Program.ofText text = .ok (before ++ [stmt])) : ¬Unfinished text n := by
  have count := h.count
  rintro (_ | ⟨before', stmt', later', _, parsed', some, reports, -⟩)
  · exact absurd count (by simp [started, events_emit, fresh])
  · -- Another statement with the same number of reports before it would stand before the last.
    obtain ⟨init, x, rfl⟩ := (List.eq_nil_or_concat later').resolve_left some
    rw [parsed, Except.ok.injEq, List.concat_eq_append, ← List.cons_append,
      ← List.append_assoc] at parsed'
    have inside : before = before' ++ stmt' :: init := List.append_inj_left' parsed' rfl
    have one : (started .never).events.length = 1 := rfl
    rw [inside, List.countP_append, List.countP_cons_of_pos reports, one] at count
    omega

/-- A statement that is not the last leaves others to be executed. -/
theorem CutBehind.unfinished {text : Text} {last : Run} {before later : Program} {stmt : Stmt}
    (h : CutBehind n (started .never) last before stmt later)
    (parsed : Program.ofText text = .ok (before ++ stmt :: later)) (some : later ≠ []) :
    Unfinished text n := by
  obtain ⟨message, older, newest⟩ := h.newest
  have one : (started .never).events.length = 1 := rfl
  have count : n = before.countP Stmt.reports + 2 := by
    have := h.count
    omega
  subst count
  refine .output before stmt later message parsed some h.reports ?_
  -- The newest event of the run is at the `n`-th place of all that it will report.
  obtain ⟨rest, whole⟩ :=
    last.events_prefix_execute later (last.execute .never later).1.events
  have place : older.reverse.length = before.countP Stmt.reports + 1 := by
    have := h.length
    rw [newest, List.length_cons] at this
    rw [List.length_reverse]
    omega
  rw [eventsOf, events_interpret_of_ok .never parsed, h.alone, ← whole, newest,
    List.reverse_cons, List.append_assoc, ← place, List.getElem?_append_right (Nat.le_refl _),
    Nat.sub_self]
  rfl

/-- A run that is left alone is not interrupted. -/
theorem execute_never_ne_interrupted (program : Program) :
    ((started .never).execute .never program).1 ≠ .interrupted := by
  have alone : (started .never).Alone := Alone.emit ⟨rfl, rfl⟩ .started
  obtain ⟨-, ending⟩ := execute_alone alone program
  split at ending
  · rw [ending]
    nofun
  · obtain ⟨fault, -, ending⟩ := ending
    rw [ending]
    nofun

/-- A run that is left alone does not end as interrupted, be its text a program or not. -/
theorem ending_interpret_never_ne_interrupted (text : Text) :
    (interpret .never text).ending ≠ .interrupted := by
  cases parsed : Program.ofText text with
  | error failure =>
    rw [interpret, parsed]
    rintro ⟨⟩
  | ok program =>
    rw [ending_interpret_of_ok .never parsed]
    exact execute_never_ne_interrupted program

/-- A run over a program whose token is set at the `n`-th event: it is not interrupted, and its
events are those of the run that is left alone, cut behind that event if a statement is still to be
executed. -/
theorem interpret_tokenAt_of_ok {text : Text} {program : Program} (pos : 0 < n)
    (parsed : Program.ofText text = .ok program) :
    (interpret (.tokenAt n) text).ending ≠ .interrupted ∧
      (Unfinished text n →
        (interpret (.tokenAt n) text).events = (eventsOf text).take n ++ [.cancelled]) ∧
      (¬Unfinished text n → (interpret (.tokenAt n) text).events = eventsOf text) := by
  have completed : Ending.completed ≠ .interrupted := by decide
  have stopped : Ending.stopped ≠ .interrupted := by decide
  rw [ending_interpret_of_ok (.tokenAt n) parsed, eventsOf, events_interpret_of_ok .never parsed,
    events_interpret_of_ok (.tokenAt n) parsed, started_tokenAt]
  by_cases one : 1 = n
  · -- The token is set at the start, and found set before the first statement.
    subst one
    rw [if_pos rfl, unfinished_one_iff parsed]
    by_cases none : program = []
    · subst none
      exact ⟨completed, fun some => absurd rfl some, fun _ => rfl⟩
    · rw [execute_asked _ _ none]
      exact ⟨stopped, fun _ => congrArg (· ++ [Event.cancelled])
        (take_events_execute (started .never) program _).symm, fun finished => absurd none finished⟩
  · rw [if_neg one]
    have unheard : (started .never).events.length < n := by
      have : (started .never).events.length = 1 := rfl
      omega
    rcases execute_tokenAt unheard program with ⟨same, short⟩ | ⟨last, before, stmt, later, rfl, h⟩
    · rw [same]
      exact ⟨execute_never_ne_interrupted program,
        fun unfinished => absurd unfinished (not_unfinished_of_length_lt parsed short),
        fun _ => rfl⟩
    · rw [h.alone, h.cut]
      by_cases none : later = []
      · subst none
        exact ⟨completed, fun unfinished => absurd unfinished (h.not_unfinished parsed),
          fun _ => rfl⟩
      · have unfinished := h.unfinished parsed none
        rw [execute_asked _ _ none, ← h.length]
        exact ⟨stopped,
          fun _ => congrArg (· ++ [Event.cancelled]) (take_events_execute last later _).symm,
          fun finished => absurd (h.length ▸ unfinished) finished⟩

/-- A run whose token is set right after its `n`-th event returns, and its events are those of the
run that is left alone: the first `n` of them and that it was cancelled, if a statement is still to
be executed at that moment, and all of them if none is. A token that is set before the run counts as
set at the first event. -/
theorem events_interpret_tokenAt (pos : 0 < n) (text : Text) :
    (interpret (.tokenAt n) text).interrupted = false ∧
      (interpret (.tokenAt n) text).ending ≠ .interrupted ∧
      (Unfinished text n →
        (interpret (.tokenAt n) text).events = (eventsOf text).take n ++ [.cancelled]) ∧
      (¬Unfinished text n → (interpret (.tokenAt n) text).events = eventsOf text) ∧
      interpret .tokenBefore text = interpret (.tokenAt 1) text := by
  cases parsed : Program.ofText text with
  | error failure =>
    -- A text that is no program has no statement, and its events do not depend on the token.
    have unaffected : (interpret (.tokenAt n) text).events = eventsOf text := by
      rw [eventsOf, events_interpret_of_error _ parsed, events_interpret_of_error _ parsed]
    have ending : (interpret (.tokenAt n) text).ending ≠ .interrupted := by
      rw [interpret, parsed]
      rintro ⟨⟩
    refine ⟨interrupted_interpret_eq_false rfl ending, ending, ?_, fun _ => unaffected,
      interpret_tokenBefore text⟩
    · rintro (⟨parsed', -⟩ | ⟨_, _, _, _, parsed', -⟩)
      · rw [parsed] at parsed'
        cases parsed'
      · rw [parsed] at parsed'
        cases parsed'
  | ok program =>
    obtain ⟨ending, cut, whole⟩ := interpret_tokenAt_of_ok pos parsed
    exact ⟨interrupted_interpret_eq_false rfl ending, ending, cut, whole,
      interpret_tokenBefore text⟩

/-- The second statement would fail. A token that is set at the output of the first keeps the run
from coming to that error. -/
theorem events_interpret_tokenAt_before_fault :
    0 < 2 ∧ Unfinished "print \"a\" out x" 2 ∧
      (interpret (.tokenAt 2) "print \"a\" out x").events =
        [.started, .output "a", .cancelled] := by
  have parsed : Program.ofText "print \"a\" out x" = .ok [.print "a", .out (.ident "x")] := by
    have scanned : Token.scan "print \"a\" out x" =
        [⟨.print, "print", 0⟩, ⟨.string, "\"a\"", 6⟩, ⟨.out, "out", 10⟩, ⟨.ident, "x", 14⟩] := by
      decide +kernel
    rw [Program.ofText, scanned]
    rfl
  obtain ⟨fault, -, events⟩ := eventsOf_of_ofText parsed
  have unfinished : Unfinished "print \"a\" out x" 2 := by
    refine .output [] (.print "a") [.out (.ident "x")] "a" parsed (List.cons_ne_nil _ _) rfl ?_
    rw [events]
    rfl
  obtain ⟨-, -, cut, -⟩ := events_interpret_tokenAt (n := 2) (by decide) "print \"a\" out x"
  refine ⟨by decide, unfinished, ?_⟩
  rw [cut unfinished, events]
  rfl

end Run

end RangeCalc
