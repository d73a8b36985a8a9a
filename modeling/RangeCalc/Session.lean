import RangeCalc.Run
import RangeCalc.Event.Stream
import RangeCalc.Settings

/-!
# Sessions

A session is a series of runs that report on one event stream, to which others may subscribe. Nothing
but the stream is carried over from one run to the next.
-/

namespace RangeCalc

/-- Why a session cannot be opened or a step of it cannot be taken. -/
inductive SessionError
  /-- The stream is to keep more events than a stream can. -/
  | streamSize
  /-- An event was emitted on a closed stream. -/
  | closedStream
  /-- A run was asked for in the middle of a session, where only its own runs can be. -/
  | nestedRun
  deriving DecidableEq

/-- The wording of a session error. -/
def SessionError.message : SessionError → Text
  | streamSize => "Python int too large to convert to C ssize_t"
  | closedStream => "emit on a closed event stream"
  | nestedRun =>
    "run_once cannot run inside an active event loop; await Interpreter.interpret instead"

namespace Session

/-- A step of a session. -/
inductive Step
  /-- Runs a text. -/
  | interpret (text : Text) (plan : Cancellation)
  /-- Emits an event. -/
  | emit (event : Event)
  /-- Subscribes, with the events that are kept or without. -/
  | subscribe (replay : Bool)
  /-- Takes all events that wait in a subscription. -/
  | drain (sub : Nat)
  /-- Takes the next item of a subscription. -/
  | next (sub : Nat)
  | unsubscribe (sub : Nat)
  /-- Looks at the events that are kept. -/
  | snapshot
  /-- Closes the stream. -/
  | close
  /-- Asks for a run of its own. -/
  | runOnce (text : Text)

/-- What comes of a step. -/
inductive Answer
  | done
  /-- The events of a run, and whether its task ended as interrupted. -/
  | report (events : List Event) (interrupted : Bool)
  /-- The number of a new subscription. -/
  | subscription (number : Nat)
  | events (events : List Event)
  /-- The item taken from a subscription, if one waited. -/
  | item (item : Option EventStream.Item)
  | refused (error : SessionError)

/-- Takes a step. -/
def perform (stream : EventStream) : Step → Answer × EventStream
  | .interpret text plan =>
    let report := Run.interpret plan text
    match stream.emitAll? report.events with
    | some stream => (.report report.events report.interrupted, stream)
    | none => (.refused .closedStream, stream)
  | .emit event =>
    match stream.emit? event with
    | some stream => (.done, stream)
    | none => (.refused .closedStream, stream)
  | .subscribe replay => (.subscription stream.subscriptions.length, stream.subscribe replay)
  | .drain sub =>
    let (events, stream) := stream.drain sub
    (.events events, stream)
  | .next sub =>
    let (item, stream) := stream.next sub
    (.item item, stream)
  | .unsubscribe sub => (.done, stream.unsubscribe sub)
  | .snapshot => (.events stream.kept, stream)
  | .close => (.done, stream.close)
  | .runOnce _ => (.refused .nestedRun, stream)

/-- Takes steps one after the other. -/
def performAll (stream : EventStream) : List Step → List Answer
  | [] => []
  | step :: steps =>
    let (answer, stream) := perform stream step
    answer :: performAll stream steps

/-- How many events the stream of a session is to keep, which may be said or left to the settings. -/
def streamSize (settings : Settings) : Option Int → Nat
  | none => settings.replaySize
  | some size => size.toNat

/-- Opens a session and takes its steps. -/
def run (settings : Settings) (replay : Option Int) (steps : List Step) :
    Except SessionError (List Answer) :=
  let size := streamSize settings replay
  if EventStream.maxSize < size then .error .streamSize
  else .ok (performAll (.fresh size) steps)

end Session

end RangeCalc
