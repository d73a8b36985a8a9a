import RangeCalc.Text

/-!
# Events

A run reports its progress as events: it starts, prints texts, and ends with exactly one terminal
event, before which an error may be reported.

* `Screen` is what events leave on the two output channels of a terminal.
-/

namespace RangeCalc

/-- An event of a run. -/
inductive Event
  | started
  | output (message : Text)
  | error (message : Text)
  | completed
  | cancelled
  deriving DecidableEq, Repr

/-- Whether an event is the last of its run. -/
def Event.isTerminal : Event → Bool
  | completed => true
  | cancelled => true
  | _ => false

/-- The text that an event prints or reports, if it is one that does. -/
def Event.message? : Event → Option Text
  | output message => some message
  | error message => some message
  | _ => none

/-- What has been written to the two channels of a terminal. The trace of a failure goes to the channel
for errors too. How it is worded is left open, so traces are counted and stand in no text. -/
@[ext]
structure Screen where
  out : Text
  err : Text
  /-- How many failures have been traced. -/
  traces : Nat
  deriving DecidableEq

namespace Screen

/-- Nothing yet. -/
def blank : Screen := ⟨[], [], 0⟩

/-- A line on the channel for results. -/
def outLine (line : Text) : Screen := ⟨line ++ ['\n'], [], 0⟩

/-- A line on the channel for errors. -/
def errLine (line : Text) : Screen := ⟨[], line ++ ['\n'], 0⟩

/-- The trace of a failure. -/
def trace : Screen := ⟨[], [], 1⟩

/-- One thing written after another. -/
def append (a b : Screen) : Screen := ⟨a.out ++ b.out, a.err ++ b.err, a.traces + b.traces⟩

instance : Append Screen := ⟨append⟩

/-- What an event writes. -/
def ofEvent : Event → Screen
  | .output message => outLine message
  | .error message => errLine ("Error: " ++ message)
  | .cancelled => errLine "Cancelled"
  | _ => blank

/-- What a list of events writes. -/
def ofEvents (events : List Event) : Screen :=
  events.foldr (fun event rest => ofEvent event ++ rest) blank

end Screen

/-- Whether an error is among the events. -/
def hasError (events : List Event) : Bool :=
  events.any fun
    | .error _ => true
    | _ => false

end RangeCalc
