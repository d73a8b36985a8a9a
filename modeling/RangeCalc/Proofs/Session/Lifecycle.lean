import RangeCalc.Proofs.Event.Stream
import RangeCalc.Proofs.Run.Refinement
import RangeCalc.Session

/-!
# The lifecycle of a run

However a run is cancelled, and whatever was done in its session before, it reports one start, then
the texts it prints, and then one ending: that it is complete, an error and that it is complete, or
that it was cancelled. Nothing follows. A text that is no program fails right after the start,
cancelled or not.

A run reads nothing of its session, so its events are the same in every session whose stream is
open.

* `Run.lifecycle_interpret`: the shape of the events of a run;
* `Run.exists_terminal_interpret`: the last event of a run is the only one that is terminal;
* `Session.performAll_interpret_drain`: those who listen hear the events of the run;
* `Session.lifecycle_of_interpret`: the two together, for all sessions.
-/

namespace RangeCalc

/-- The events with which a run can end. -/
inductive Event.Ends : List Event → Prop
  | completed : Ends [.completed]
  | failed (message : Text) : Ends [.error message, .completed]
  | cancelled : Ends [.cancelled]

/-- The events of one run from its start to its end. -/
inductive Event.Lifecycle : List Event → Prop
  | run (outputs : List Text) {ending : List Event} (ends : Ends ending) :
      Lifecycle (.started :: outputs.map .output ++ ending)

/-- A run ends in one of three ways. -/
theorem Ending.ends (ending : Ending) : Event.Ends ending.events := by
  cases ending with
  | completed => exact .completed
  | failed error => exact .failed error.message
  | stopped => exact .cancelled
  | interrupted => exact .cancelled

namespace Run

/-- A run reports its start, then texts, then an ending, however it is cancelled. -/
theorem lifecycle_interpret (plan : Cancellation) (text : Text) :
    Event.Lifecycle (interpret plan text).events := by
  cases parsed : Program.ofText text with
  | error failure =>
    rw [events_interpret_of_error plan parsed]
    exact .run [] (.failed failure.cause.message)
  | ok program =>
    obtain ⟨outputs, executed⟩ := events_execute plan (started plan) program
    have first : (started plan).events = [.started] := rfl
    rw [events_interpret_of_ok plan parsed, executed, List.reverse_append, List.reverse_reverse,
      first]
    exact .run outputs (Ending.ends _)

/-- The last event of a run is terminal, and no other one is. -/
theorem exists_terminal_interpret (plan : Cancellation) (text : Text) :
    ∃ before last, (interpret plan text).events = before ++ [last] ∧
      last.isTerminal = true ∧ ∀ event ∈ before, event.isTerminal = false := by
  have lifecycle := lifecycle_interpret plan text
  generalize (interpret plan text).events = events at lifecycle
  obtain ⟨outputs, ends⟩ := lifecycle
  have front : ∀ event ∈ Event.started :: outputs.map .output, event.isTerminal = false := by
    simp [Event.isTerminal]
  cases ends with
  | completed => exact ⟨_, .completed, rfl, rfl, front⟩
  | failed message =>
    refine ⟨Event.started :: outputs.map .output ++ [.error message], .completed, ?_, rfl, ?_⟩
    · rw [List.append_assoc, List.singleton_append]
    · exact List.forall_mem_append.2 ⟨front, List.forall_mem_singleton.2 rfl⟩
  | cancelled => exact ⟨_, .cancelled, rfl, rfl, front⟩

/-- A run that is left alone is not reported as cancelled. -/
theorem cancelled_notMem_eventsOf (text : Text) : .cancelled ∉ eventsOf text := by
  cases parsed : Program.ofText text with
  | error failure =>
    rw [eventsOf, events_interpret_of_error .never parsed]
    simp
  | ok program =>
    have events := eventsOf_of_ofText parsed
    split at events
    · rw [events]
      simp
    · obtain ⟨fault, -, events⟩ := events
      rw [events]
      simp

end Run

namespace Session

/-- The stream after some steps. -/
def streamAfter (stream : EventStream) (steps : List Step) : EventStream :=
  steps.foldl (fun stream step => (perform stream step).2) stream

theorem performAll_append (stream : EventStream) (steps later : List Step) :
    performAll stream (steps ++ later) =
      performAll stream steps ++ performAll (streamAfter stream steps) later := by
  induction steps generalizing stream with
  | nil => rfl
  | cons step steps ih =>
    simp only [List.cons_append, performAll]
    rw [ih]
    rfl

/-- A step closes the stream only if it is meant to. -/
theorem closed_perform {stream : EventStream} (h : stream.closed = false) {step : Step}
    (other : step ≠ .close) : (perform stream step).2.closed = false := by
  cases step with
  | interpret text plan =>
    obtain ⟨kept, taken⟩ := EventStream.emitAll?_of_open h (Run.interpret plan text).events
    simp only [perform, taken]
    exact h
  | emit event =>
    simp only [perform, EventStream.emit?, h, Bool.false_eq_true, if_false]
  | subscribe replay => exact h
  | drain sub =>
    simp only [perform, EventStream.drain]
    split
    · exact h
    · exact h
  | next sub =>
    simp only [perform, EventStream.next]
    split
    · exact h
    · exact h
  | unsubscribe sub => exact h
  | snapshot => exact h
  | close => exact absurd rfl other
  | runOnce text => exact h

/-- The stream of a session is open as long as no step closes it. -/
theorem closed_streamAfter {stream : EventStream} (h : stream.closed = false) {steps : List Step}
    (not_closed : .close ∉ steps) : (streamAfter stream steps).closed = false := by
  induction steps generalizing stream with
  | nil => exact h
  | cons step steps ih =>
    obtain ⟨other, not_closed⟩ := not_or.1 fun closed => not_closed (List.mem_cons.2 closed)
    exact ih (closed_perform h (Ne.symm other)) not_closed

/-- Who subscribes to an open stream before a run has the events of the run in its queue, and no
others. -/
theorem performAll_subscribe_interpret {stream : EventStream} (h : stream.closed = false)
    (text : Text) (plan : Cancellation) (later : List Step) :
    ∃ after : EventStream,
      after.subscriptions[stream.subscriptions.length]? =
        some ⟨(Run.interpret plan text).events.map .event, true⟩ ∧
      performAll stream (.subscribe false :: .interpret text plan :: later) =
        .subscription stream.subscriptions.length ::
          .report (Run.interpret plan text).events (Run.interpret plan text).interrupted ::
            performAll after later := by
  obtain ⟨after, taken, heard⟩ :=
    EventStream.emitAll?_subscribe h (Run.interpret plan text).events
  refine ⟨after, heard, ?_⟩
  simp only [performAll, perform, taken]

/-- A listener of an open session hears the events of a run. -/
theorem performAll_interpret_drain {stream : EventStream} (h : stream.closed = false) (text : Text)
    (plan : Cancellation) :
    performAll stream
        [.subscribe false, .interpret text plan, .drain stream.subscriptions.length] =
      [.subscription stream.subscriptions.length,
        .report (Run.interpret plan text).events (Run.interpret plan text).interrupted,
        .events (Run.interpret plan text).events] := by
  obtain ⟨after, heard, performed⟩ :=
    performAll_subscribe_interpret h text plan [.drain stream.subscriptions.length]
  have drained := EventStream.drain_of_getElem? heard
  rw [← List.append_nil (List.map _ _), EventStream.takeEvents_append] at drained
  rw [performed]
  simp only [performAll, perform, drained, EventStream.takeEvents, List.append_nil]

/-- A listener that leaves after the run hears the same. -/
theorem performAll_interpret_unsubscribe_drain {stream : EventStream} (h : stream.closed = false)
    (text : Text) (plan : Cancellation) :
    performAll stream
        [.subscribe false, .interpret text plan, .unsubscribe stream.subscriptions.length,
          .drain stream.subscriptions.length] =
      [.subscription stream.subscriptions.length,
        .report (Run.interpret plan text).events (Run.interpret plan text).interrupted,
        .done, .events (Run.interpret plan text).events] := by
  obtain ⟨after, heard, performed⟩ := performAll_subscribe_interpret h text plan
    [.unsubscribe stream.subscriptions.length, .drain stream.subscriptions.length]
  -- Leaving puts a mark behind the events in the queue, and the mark is no event.
  have left : (after.unsubscribe stream.subscriptions.length).subscriptions[
      stream.subscriptions.length]? =
        some ⟨(Run.interpret plan text).events.map .event ++ [.closed], false⟩ := by
    rw [EventStream.unsubscribe, List.getElem?_modify_eq, heard]
    rfl
  have drained := EventStream.drain_of_getElem? left
  rw [EventStream.takeEvents_append] at drained
  rw [performed]
  simp only [performAll, perform, drained, EventStream.takeEvents, List.append_nil]

/-- The events of a run have the shape of a lifecycle, however it is cancelled. A text that is no
program gives an error and nothing else, and a run that is left alone is not cancelled. A session of
one run reports these events, and so does every open session, whatever was done in it before. -/
theorem lifecycle_of_interpret (text : Text) (plan : Cancellation) :
    ∃ events interrupted, Event.Lifecycle events ∧
      (∀ failure, Program.ofText text = .error failure →
        events = [.started, .error failure.cause.message, .completed]) ∧
      (plan = .never → events = Run.eventsOf text ∧ .cancelled ∉ events) ∧
      performAll (.fresh 0)
          [.subscribe false, .interpret text plan, .unsubscribe 0, .drain 0] =
        [.subscription 0, .report events interrupted, .done, .events events] ∧
      ∀ size history, .close ∉ history → ∃ number,
        performAll (.fresh size)
            (history ++ [.subscribe false, .interpret text plan, .drain number]) =
          performAll (.fresh size) history ++
            [.subscription number, .report events interrupted, .events events] := by
  refine ⟨(Run.interpret plan text).events, (Run.interpret plan text).interrupted,
    Run.lifecycle_interpret plan text, ?_, ?_, ?_, ?_⟩
  · intro failure parsed
    exact Run.events_interpret_of_error plan parsed
  · rintro rfl
    exact ⟨rfl, Run.cancelled_notMem_eventsOf text⟩
  · exact performAll_interpret_unsubscribe_drain rfl text plan
  · -- The history matters only for the number of the subscription.
    intro size history not_closed
    have still : (streamAfter (.fresh size) history).closed = false :=
      closed_streamAfter rfl not_closed
    refine ⟨(streamAfter (.fresh size) history).subscriptions.length, ?_⟩
    rw [performAll_append, performAll_interpret_drain still text plan]

/-- A text that breaks off is run after a run that was stopped in the middle, with a listener that
has left. -/
theorem lifecycle_of_interpret_after_stopped_run :
    ∃ events interrupted number,
      events = [.started, .error "Unexpected end of expression", .completed] ∧
      events = Run.eventsOf "out" ∧
      performAll (.fresh 1)
          ([.subscribe true, .interpret "print \"a\" out x" ⟨false, some 2, some 1⟩,
              .unsubscribe 0] ++
            [.subscribe false, .interpret "out" .never, .drain number]) =
        performAll (.fresh 1)
            [.subscribe true, .interpret "print \"a\" out x" ⟨false, some 2, some 1⟩,
              .unsubscribe 0] ++
          [.subscription number, .report events interrupted, .events events] := by
  have parsed : Program.ofText "out" = .error ⟨.endOfExpression, []⟩ := by
    have scanned : Token.scan "out" = [⟨.out, "out", 0⟩] := by decide +kernel
    rw [Program.ofText, scanned]
    rfl
  obtain ⟨events, interrupted, -, failed, alone, -, session⟩ := lifecycle_of_interpret "out" .never
  obtain ⟨number, performed⟩ := session 1
    [.subscribe true, .interpret "print \"a\" out x" ⟨false, some 2, some 1⟩, .unsubscribe 0]
    (by simp)
  exact ⟨events, interrupted, number, failed _ parsed, (alone rfl).1, performed⟩

end Session

end RangeCalc
