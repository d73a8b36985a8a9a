import RangeCalc.Event

/-!
# Event streams

A stream hands every event to all its subscriptions, and keeps the last few for those that come
later. A subscription is a queue: first the events that were kept when it was made, if it asked for
them, then every event emitted while it was attached, and at its end a single mark that it has been
closed.
-/

namespace RangeCalc

/-- An item in the queue of a subscription. -/
inductive EventStream.Item
  | event (event : Event)
  /-- No event follows. -/
  | closed
  deriving DecidableEq

/-- A subscription. -/
structure EventStream.Subscription where
  queue : List EventStream.Item
  /-- Whether it still receives events. -/
  attached : Bool

/-- A stream of events. -/
structure EventStream where
  /-- How many events are kept for later subscriptions. -/
  size : Nat
  /-- The events kept, the oldest first. -/
  kept : List Event
  /-- All subscriptions ever made, in order. -/
  subscriptions : List EventStream.Subscription
  closed : Bool

namespace EventStream

/-- A stream on which nothing has happened. -/
def fresh (size : Nat) : EventStream := ⟨size, [], [], false⟩

/-- The most events that a stream can be asked to keep. -/
def maxSize : Nat := 9223372036854775807

/-- Puts an item at the end of the queue of an attached subscription. -/
def Subscription.push (item : Item) (sub : Subscription) : Subscription :=
  if sub.attached then { sub with queue := sub.queue ++ [item] } else sub

/-- Detaches a subscription and marks the end of its queue. -/
def Subscription.detach (sub : Subscription) : Subscription :=
  { sub.push .closed with attached := false }

/-- The last `size` events. -/
def lastOf (size : Nat) (events : List Event) : List Event := events.drop (events.length - size)

/-- Hands an event to all. A closed stream takes none. -/
def emit? (stream : EventStream) (event : Event) : Option EventStream :=
  if stream.closed then none
  else some
    { stream with
      kept := lastOf stream.size (stream.kept ++ [event])
      subscriptions := stream.subscriptions.map (·.push (.event event)) }

/-- Hands out events one after the other. -/
def emitAll? (stream : EventStream) (events : List Event) : Option EventStream :=
  events.foldlM emit? stream

/-- Makes a subscription, which has the number of those made before. One to a closed stream is
closed at once. -/
def subscribe (stream : EventStream) (replay : Bool) : EventStream :=
  let backlog := if replay then stream.kept.map Item.event else []
  let sub : Subscription :=
    if stream.closed then ⟨backlog ++ [.closed], false⟩ else ⟨backlog, true⟩
  { stream with subscriptions := stream.subscriptions ++ [sub] }

/-- The events at the front of a queue, and what is left: a closing mark behind them is used up. -/
def takeEvents : List Item → List Event × List Item
  | [] => ([], [])
  | .closed :: rest => ([], rest)
  | .event event :: rest =>
    let (events, left) := takeEvents rest
    (event :: events, left)

/-- Takes all events that wait in a subscription. -/
def drain (stream : EventStream) (i : Nat) : List Event × EventStream :=
  match stream.subscriptions[i]? with
  | none => ([], stream)
  | some sub =>
    let (events, left) := takeEvents sub.queue
    (events, { stream with subscriptions := stream.subscriptions.set i { sub with queue := left } })

/-- Takes the next item of a subscription, if one waits. -/
def next (stream : EventStream) (i : Nat) : Option Item × EventStream :=
  match stream.subscriptions[i]? with
  | some ⟨item :: rest, attached⟩ =>
    (some item, { stream with subscriptions := stream.subscriptions.set i ⟨rest, attached⟩ })
  | _ => (none, stream)

/-- Ends a subscription. One that has ended stays as it is. -/
def unsubscribe (stream : EventStream) (i : Nat) : EventStream :=
  { stream with subscriptions := stream.subscriptions.modify i Subscription.detach }

/-- Closes the stream and all its subscriptions. -/
def close (stream : EventStream) : EventStream :=
  { stream with subscriptions := stream.subscriptions.map Subscription.detach, closed := true }

end EventStream

end RangeCalc
