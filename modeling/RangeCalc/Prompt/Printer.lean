import RangeCalc.Event.Stream
import RangeCalc.Loop.Shared
import RangeCalc.Run

/-!
# The printer

At the prompt a run is not left to itself. It reports on a stream, and a second task, the *printer*,
is subscribed to that stream and writes the events while the run is still under way. Both take turns
on one loop: the printer has its turn whenever the run has to wait, be it at the checkpoint before a
statement, in the middle of an evaluation or before its last events, which are reported by a task of
their own unless the run completes. In its turn the printer writes all events that wait for it. Then
it waits for the next event, which puts it back into the queue of the loop.

When the run is over the subscription ends, and the prompt waits until the printer has come to the
end of it.

* `Printer.turn` is what the printer does in a turn;
* `Streaming.interpret` is a whole run next to a printer;
* `Streaming.conclude` waits for the printer.
-/

namespace RangeCalc.Prompt

open Loop

/-- The printer, subscribed to a stream that nobody else is subscribed to. -/
structure Printer where
  stream : EventStream
  /-- Whether a turn of the printer waits in the queue of the loop. -/
  due : Bool
  /-- Whether it has come to the end of its subscription. -/
  finished : Bool
  /-- What it has written. -/
  screen : Screen

namespace Printer

/-- The printer before its first turn, for which it waits. -/
def fresh : Printer := ⟨(EventStream.fresh 0).subscribe false, true, false, .blank⟩

/-- The items that wait for the printer. -/
def backlog (p : Printer) : List EventStream.Item :=
  match p.stream.subscriptions[0]? with
  | some sub => sub.queue
  | none => []

/-- What the printer does in a turn: it takes item after item, and writes the events. If no item is
left it waits, and at the mark it ends. -/
def turn (p : Printer) : Printer :=
  match _h : p.stream.next 0 with
  | (none, _) => { p with due := false }
  | (some .closed, stream) => { p with stream := stream, due := false, finished := true }
  | (some (.event event), stream) =>
    turn { p with stream := stream, screen := p.screen ++ .ofEvent event }
termination_by p.backlog.length
decreasing_by
  rw [EventStream.next] at _h
  split at _h
  · rename_i item rest attached found
    cases _h
    simp only [backlog, found, List.length_cons]
    obtain ⟨lt, -⟩ := List.getElem?_eq_some_iff.1 found
    rw [List.getElem?_set_self lt]
    exact Nat.lt_succ_self _
  · cases _h

/-- Gives the printer its turn, if one is due. -/
def visit (p : Printer) : Printer := if p.due then p.turn else p

/-- Hands the printer an event. -/
def receive (p : Printer) (event : Event) : Printer :=
  match p.stream.emit? event with
  | some stream => { p with stream := stream, due := true }
  | none => p

/-- Ends the subscription of the printer. -/
def release (p : Printer) : Printer :=
  { p with stream := p.stream.unsubscribe 0, due := true }

end Printer

/-- A run between two of its steps, next to a printer. -/
structure Streaming where
  run : Run
  printer : Printer

namespace Streaming

variable (plan : Cancellation)

/-- A run before its first event. -/
def fresh : Streaming := ⟨.fresh plan, .fresh⟩

/-- Reports an event. -/
def emit (s : Streaming) (event : Event) : Streaming :=
  ⟨s.run.emit plan event, s.printer.receive event⟩

/-- The run has to wait, and the printer has its turn. -/
def wait (s : Streaming) : Streaming := { s with printer := s.printer.visit }

/-- The checkpoint before a statement. The run has to wait there if it is suspended, which it is not
if its token is set. -/
def passStatement (s : Streaming) : Except Ending Unit × Streaming :=
  let (result, run) := s.run.passStatement
  let left : Streaming := { s with run := run }
  (result,
    if run.desk.checkpoint.isDue && !run.desk.checkpoint.cancelled then left.wait else left)

/-- Evaluates an expression in the global frame. -/
def evaluate (s : Streaming) (e : Expr) : Except Ending Value × Streaming :=
  let (report, printer) := Shared.run Printer.turn s.printer.due s.printer s.run.interrupted
    (e.eval [s.run.globals] .ret) s.run.desk
  let (result, run) := s.run.heed report
  (result, ⟨run, printer⟩)

/-- Executes a statement. -/
def executeOne (s : Streaming) : Stmt → Except Ending Unit × Streaming
  | .var name value =>
    match s.evaluate value with
    | (.ok value, s) =>
      (.ok (), { s with run := { s.run with globals := s.run.globals.define name value } })
    | (.error ending, s) => (.error ending, s)
  | .out value =>
    match s.evaluate value with
    | (.ok value, s) => (.ok (), s.emit plan (.output value.text))
    | (.error ending, s) => (.error ending, s)
  | .print text => (.ok (), s.emit plan (.output text))

/-- Executes statements in order, up to the first that ends the run. -/
def execute : Streaming → Program → Ending × Streaming
  | s, [] => (.completed, s)
  | s, stmt :: program =>
    match s.passStatement with
    | (.error ending, s) => (ending, s)
    | (.ok (), s) =>
      match s.executeOne plan stmt with
      | (.ok (), s) => execute s program
      | (.error ending, s) => (ending, s)

/-- Reports the last events of a run that does not complete. The run waits for a task that reports
them, and the printer has its turn before that task and behind it. -/
def emitLast (s : Streaming) (events : List Event) : Streaming :=
  let reported := events.foldl (emit plan) s.wait
  wait { reported with run := reported.run.wait.2 }

/-- Reports the last events of a run. -/
def finish (s : Streaming) : Ending → Streaming
  | .completed => s.emit plan .completed
  | .failed error => s.emitLast plan [.error error.message, .completed]
  | .stopped => s.emitLast plan [.cancelled]
  | .interrupted => s.emitLast plan [.cancelled]

/-- Runs a text. -/
def interpret (text : Text) : Streaming :=
  let s := (fresh plan).emit plan .started
  match Program.ofText text with
  | .error failure => s.finish plan (.failed (.parse failure.cause))
  | .ok program =>
    let (ending, s) := s.execute plan program
    s.finish plan ending

/-- Ends the subscription of the printer, and waits for it. -/
def conclude (s : Streaming) : Printer := s.printer.release.visit

end Streaming

end RangeCalc.Prompt
