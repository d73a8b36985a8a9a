import RangeCalc.Event.Stream

/-!
# Delivery of events

An open stream takes every event, and an attached subscription receives all events that the stream
takes, in order and behind those that wait in it already. Who else is subscribed does not matter.

* `EventStream.emitAll?_of_open`: what a series of events does to an open stream;
* `EventStream.emitAll?_subscribe`: what a new subscription receives of it.
-/

namespace RangeCalc

namespace EventStream

/-- The events that a series of pushes leaves in a subscription: all of them if it is attached, none
if it is not. -/
theorem Subscription.foldl_push (sub : Subscription) (events : List Event) :
    events.foldl (fun sub event => sub.push (.event event)) sub =
      if sub.attached then { sub with queue := sub.queue ++ events.map .event } else sub := by
  induction events generalizing sub with
  | nil => cases sub; simp
  | cons event events ih =>
    rw [List.foldl_cons, ih, push]
    by_cases attached : sub.attached
    · simp only [attached, if_true, List.map_cons, List.append_assoc, List.singleton_append]
    · simp only [attached, Bool.false_eq_true, if_false]

/-- An open stream takes events one after the other, stays open, and hands all of them to every
subscription. -/
theorem emitAll?_of_open {stream : EventStream} (h : stream.closed = false) (events : List Event) :
    ∃ kept, stream.emitAll? events = some
      { stream with
        kept := kept
        subscriptions := stream.subscriptions.map fun sub =>
          events.foldl (fun sub event => sub.push (.event event)) sub } := by
  induction events generalizing stream with
  | nil => exact ⟨stream.kept, by simp [emitAll?]⟩
  | cons event events ih =>
    -- How many events are kept is of no concern here, so `kept` is left open.
    have one : stream.emit? event = some
        { stream with
          kept := lastOf stream.size (stream.kept ++ [event])
          subscriptions := stream.subscriptions.map (·.push (.event event)) } := by
      rw [emit?, h]
      rfl
    have still : ({ stream with
        kept := lastOf stream.size (stream.kept ++ [event])
        subscriptions := stream.subscriptions.map (·.push (.event event)) } : EventStream).closed =
          false := h
    obtain ⟨kept, rest⟩ := ih still
    refine ⟨kept, ?_⟩
    rw [emitAll?] at rest ⊢
    rw [List.foldlM_cons, one, Option.bind_eq_bind, Option.bind_some, rest, List.map_map]
    rfl

/-- The events at the front of a queue come out first. -/
theorem takeEvents_append (events : List Event) (rest : List Item) :
    takeEvents (events.map .event ++ rest) =
      (events ++ (takeEvents rest).1, (takeEvents rest).2) := by
  induction events with
  | nil => rfl
  | cons event events ih => rw [List.map_cons, List.cons_append, takeEvents, ih, List.cons_append]

/-- What a drain takes out of a subscription. -/
theorem drain_of_getElem? {stream : EventStream} {i : Nat} {sub : Subscription}
    (h : stream.subscriptions[i]? = some sub) : (stream.drain i).1 = (takeEvents sub.queue).1 := by
  rw [drain, h]

/-- A subscription made without the events kept receives, after any series of events that an open
stream takes, just those. -/
theorem emitAll?_subscribe {stream : EventStream} (h : stream.closed = false)
    (events : List Event) :
    ∃ after, (stream.subscribe false).emitAll? events = some after ∧
      after.subscriptions[stream.subscriptions.length]? = some ⟨events.map .event, true⟩ := by
  have still : (stream.subscribe false).closed = false := h
  obtain ⟨kept, taken⟩ := emitAll?_of_open still events
  refine ⟨_, taken, ?_⟩
  have added : (stream.subscribe false).subscriptions = stream.subscriptions ++ [⟨[], true⟩] := by
    simp only [subscribe, h, Bool.false_eq_true, if_false]
  simp only [added, List.map_append, List.map_cons, List.map_nil, Subscription.foldl_push, if_true,
    List.nil_append]
  rw [List.getElem?_append_right (Nat.le_of_eq (List.length_map _)), List.length_map, Nat.sub_self]
  rfl

end EventStream

end RangeCalc
