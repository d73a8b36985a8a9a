import RangeCalc.Eval
import RangeCalc.Event
import RangeCalc.Loop.Run
import RangeCalc.Program.Parse

/-!
# Runs

A run takes a text, parses it, and executes its statements in order over one global frame, which only
the statements write. It reports events and keeps a log.

A run can be cancelled in two ways. Its *token* is looked at at every checkpoint and before every
compound expression; a run that finds it set ends there. Its *task* is interrupted where it next has
to wait, and a run that does not have to wait again goes on to its end. `Cancellation` says when
either happens: at the start, or right after the event of a given number.

* `Run.interpret` is the whole run;
* `Run.execute` is the statement loop;
* `Run.finish` is what a run still does when its statements are over, and how it returns.
-/

namespace RangeCalc

open Loop

/-- When a run is cancelled. -/
structure Cancellation where
  /-- Whether the token is set from the start. -/
  before : Bool
  /-- Right after which event, counted from one, the token is set. -/
  tokenAfter : Option Nat
  /-- Right after which event, counted from one, the task is interrupted. -/
  taskAfter : Option Nat

/-- The run is left alone. -/
def Cancellation.never : Cancellation := ⟨false, none, none⟩

/-- Why a run failed. -/
inductive RunError
  | parse (error : ParseError)
  | fault (fault : Fault)
  deriving DecidableEq

/-- The wording of an error. -/
def RunError.message : RunError → Text
  | .parse e => e.message
  | .fault f => f.message

/-- How a run ends. -/
inductive Ending
  | completed
  | failed (error : RunError)
  /-- The token was found set. -/
  | stopped
  /-- The task was interrupted. -/
  | interrupted
  deriving DecidableEq

/-- A line of the log of a run. -/
inductive LogLine
  | started (length : Nat)
  | parsed (statements : Nat)
  | reduction (note : Note)
  | ended (ending : Ending)
  deriving DecidableEq

/-- The wording of a log line. -/
def LogLine.message : LogLine → Text
  | started length => "run started (" ++ Text.ofNat length ++ " chars)"
  | parsed statements => "parsed " ++ Text.ofNat statements ++ " statement(s)"
  | reduction note =>
    "reduce over " ++ Text.ofNat note.count ++ " elements: " ++
      (if note.merging then "divide and conquer" else "sequential fold") ++
      " (" ++ note.body.render ++ ")"
  | ended .completed => "run completed"
  | ended (.failed error) => "run failed: " ++ error.message
  | ended .stopped => "run cancelled by token"
  | ended .interrupted => "run task cancelled"

/-- A run between two of its steps. -/
structure Run where
  globals : Frame
  desk : Desk Note
  /-- Whether an interruption of the task is pending. -/
  interrupted : Bool
  /-- The events so far, the last one first. -/
  events : List Event

namespace Run

/-- A run before its first event. -/
def fresh (plan : Cancellation) : Run where
  globals := []
  desk := ⟨if plan.before then Checkpoint.start.cancel else Checkpoint.start, []⟩
  interrupted := false
  events := []

/-- Reports an event, and cancels the run if the plan says so. -/
def emit (plan : Cancellation) (run : Run) (event : Event) : Run :=
  let events := event :: run.events
  { run with
    events := events
    desk :=
      if plan.tokenAfter = some events.length then
        { run.desk with checkpoint := run.desk.checkpoint.cancel }
      else run.desk
    interrupted := run.interrupted || plan.taskAfter == some events.length }

/-- The run has to wait. A pending interruption strikes there, and is no longer pending. -/
def wait (run : Run) : Except Ending Unit × Run :=
  (if run.interrupted then .error .interrupted else .ok (), { run with interrupted := false })

/-- The checkpoint before a statement. The run has to wait there if it is suspended. -/
def passStatement (run : Run) : Except Ending Unit × Run :=
  if run.desk.checkpoint.cancelled then (.error .stopped, run)
  else
    let passed := { run with desk := run.desk.pass }
    if passed.desk.checkpoint.isDue then passed.wait else (.ok (), passed)

/-- Goes on with the report of an evaluation. -/
def heed (run : Run) (report : Loop.Report Note Failure Value) : Except Ending Value × Run :=
  let outcome := match report.outcome with
    | .ok value => .ok value
    | .error (.error (.fault fault)) => .error (.failed (.fault fault))
    | .error (.error .stopped) => .error .stopped
    | .error .cancelled => .error .interrupted
  (outcome, { run with desk := report.desk, interrupted := report.interrupted })

/-- Evaluates an expression in the global frame. -/
def evaluate (run : Run) (e : Expr) : Except Ending Value × Run :=
  run.heed (Loop.run run.interrupted (e.eval [run.globals] .ret) run.desk)

/-- Executes a statement. -/
def executeOne (plan : Cancellation) (run : Run) : Stmt → Except Ending Unit × Run
  | .var name value =>
    match run.evaluate value with
    | (.ok value, run) => (.ok (), { run with globals := run.globals.define name value })
    | (.error ending, run) => (.error ending, run)
  | .out value =>
    match run.evaluate value with
    | (.ok value, run) => (.ok (), run.emit plan (.output value.text))
    | (.error ending, run) => (.error ending, run)
  | .print text => (.ok (), run.emit plan (.output text))

/-- Executes statements in order, up to the first that ends the run. -/
def execute (plan : Cancellation) : Run → Program → Ending × Run
  | run, [] => (.completed, run)
  | run, stmt :: program =>
    match run.passStatement with
    | (.error ending, run) => (ending, run)
    | (.ok (), run) =>
      match run.executeOne plan stmt with
      | (.ok (), run) => execute plan run program
      | (.error ending, run) => (ending, run)

/-- Reports the last events of a run that does not complete. A task of their own reports them, which
an interruption of the run does not reach: all of them are reported, but the run waits for that
task. -/
def emitLast (plan : Cancellation) (run : Run) (events : List Event) : Except Ending Unit × Run :=
  (events.foldl (emit plan) run).wait

/-- Reports the last events of a run. A run that was stopped or failed returns, unless it is
interrupted while it waits; one that was interrupted hands the interruption on. -/
def finish (plan : Cancellation) (run : Run) : Ending → Except Ending Unit × Run
  | .completed => (.ok (), run.emit plan .completed)
  | .failed error => run.emitLast plan [.error error.message, .completed]
  | .stopped => run.emitLast plan [.cancelled]
  | .interrupted => (.error .interrupted, (run.emitLast plan [.cancelled]).2)

/-- Whether the task of a run ends as interrupted: an interruption came out of the run, or is still
pending when the run returns. -/
def endsInterrupted : Except Ending Unit × Run → Bool
  | (.error ending, _) => ending = .interrupted
  | (.ok (), run) => run.interrupted

/-- The notes on a desk, in the order in which they were left. -/
def notes (desk : Desk Note) : List Note :=
  desk.record.reverse.filterMap fun
    | .noted note => some note
    | .cancelled _ => none

/-- What is known of a run that is over. -/
structure Report where
  events : List Event
  log : List LogLine
  /-- Whether its task ended as interrupted. -/
  interrupted : Bool
  ending : Ending

/-- The report of a run over the given text. -/
def report (plan : Cancellation) (text : Text) (parsed : List LogLine) (ending : Ending) (run : Run) :
    Report :=
  let last := run.finish plan ending
  { events := last.2.events.reverse
    log := .started text.length :: parsed ++ (notes last.2.desk).map .reduction ++ [.ended ending]
    interrupted := endsInterrupted last
    ending := ending }

/-- Runs a text. -/
def interpret (plan : Cancellation) (text : Text) : Report :=
  let run := (fresh plan).emit plan .started
  match Program.ofText text with
  | .error failure => report plan text [] (.failed (.parse failure.cause)) run
  | .ok program =>
    let (ending, run) := run.execute plan program
    report plan text [.parsed program.length] ending run

/-- The events of a run that is left alone. -/
def eventsOf (text : Text) : List Event := (interpret .never text).events

/-- What a run that is left alone leaves of a trace: its failure is traced, if failures are. -/
def traceOf (tracing : Bool) (text : Text) : Screen :=
  if tracing then
    match (interpret .never text).ending with
    | .failed _ => .trace
    | _ => .blank
  else .blank

/-- The texts that a run that is left alone prints or reports. -/
def messagesOf (text : Text) : List Text := (eventsOf text).filterMap Event.message?

/-- The value of a single expression in a scope, or why it has none. -/
def valueOf (scope : Scope) (e : Expr) : Outcome Failure Value :=
  (Loop.run false (e.eval scope .ret) ⟨Checkpoint.start, []⟩).outcome

end Run

end RangeCalc
