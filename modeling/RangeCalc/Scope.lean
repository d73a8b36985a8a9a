import RangeCalc.Value

/-!
# Scopes

A frame binds names to values, the last binding of a name counting. A scope is a chain of frames, the
nearest first: the global frame at its end, and before it a frame with the parameters of every lambda
around an expression. A name has the value that the nearest frame binds it to.

Scopes that are derived from one another while names are still being defined form a `ScopeFamily`:
there a definition is seen from every scope derived from the one it is made in, unless a nearer frame
hides it.
-/

namespace RangeCalc

/-- Names bound to values, the latest binding first. -/
abbrev Frame := List (Text × Value)

/-- A chain of frames, the nearest first. -/
abbrev Scope := List Frame

/-- The frame with a name bound to a value. -/
def Frame.define (frame : Frame) (name : Text) (value : Value) : Frame := (name, value) :: frame

/-- The value of a name, if some frame binds it. -/
def Scope.get? (scope : Scope) (name : Text) : Option Value :=
  scope.findSome? (List.lookup name)

/-- The value of a name, or the fault that it has none. -/
def Scope.get (scope : Scope) (name : Text) : Except Fault Value :=
  match scope.get? name with
  | some value => .ok value
  | none => .error (.undefined name)

/-- A scope of a family: its own frame, and the scope it is derived from. -/
structure ScopeFamily.Member where
  frame : Frame
  parent : Option Nat

/-- Scopes, each derived from an earlier one; the first is the root. -/
abbrev ScopeFamily := List ScopeFamily.Member

namespace ScopeFamily

/-- A single scope that binds nothing. -/
def single : ScopeFamily := [⟨[], none⟩]

/-- The chain of frames of a scope. A scope is derived from an earlier one, so the chain ends. -/
def chain (family : ScopeFamily) (i : Nat) : Scope :=
  match family[i]? with
  | none => []
  | some ⟨frame, parent⟩ =>
    match parent with
    | none => [frame]
    | some j => if j < i then frame :: chain family j else [frame]
termination_by i

/-- Binds a name in a scope. -/
def define (family : ScopeFamily) (i : Nat) (name : Text) (value : Value) : ScopeFamily :=
  family.modify i fun member => { member with frame := member.frame.define name value }

/-- Derives a new scope, with the given frame, from an existing one. -/
def overlay (family : ScopeFamily) (i : Nat) (frame : Frame) : ScopeFamily :=
  family ++ [⟨frame, some i⟩]

/-- The value of a name in a scope, or the fault that it has none. -/
def get (family : ScopeFamily) (i : Nat) (name : Text) : Except Fault Value :=
  (family.chain i).get name

/-- Whether a name has a value in a scope. -/
def has (family : ScopeFamily) (i : Nat) (name : Text) : Bool :=
  ((family.chain i).get? name).isSome

end ScopeFamily

end RangeCalc
