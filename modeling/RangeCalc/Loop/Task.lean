import RangeCalc.Loop.Action

/-!
# Tasks

A task is an action under way, together with the tasks of the parts it waits for: a tree. A task that
can go on has a *turn* in the queue of the loop. Turns are addressed by the path from the root, and
there are two kinds of them: a task may resume, and a joining task may hear that a part has ended.

A join is decided by the first part that is heard to have failed, or, if none fails, when all have
been heard. Its task then resumes. After a failure it stops the parts that have not ended, and waits a
second time for all of them: what it has heard before does not count, and a part that has already
ended is heard again, at a turn of its own. Then it ends with that failure itself. So no part outlives
its join, and a failure takes at least two rounds of the queue to get from a join to the next one up.

Stopping a task takes effect at its next turn. A task that is itself waiting for parts passes the
request on to them, and their end decides its join; once the join is decided, or if no part is left
to stop, the task itself is stopped.

* `Task.cancel` asks a task to stop;
* `Task.visit` carries out a turn.
-/

namespace RangeCalc.Loop

/-- How far a join has come. -/
inductive Stage (ε : Type)
  /-- It is waiting for its parts; `stopped` if its task has been asked to stop. -/
  | gathering (stopped : Bool)
  /-- It is decided: for a failure, or for the values of the parts. -/
  | settled (stop : Option (Stop ε))
  /-- It has failed, and waits a second time for its parts, which it has stopped. -/
  | draining (stop : Stop ε)

/-- Whether a join waits for the second time. -/
def Stage.isDraining {ε : Type} : Stage ε → Bool
  | draining _ => true
  | _ => false

/-- A task. -/
inductive Task (ν ε α : Type)
  /-- It resumes `action` at its next turn, or ends there if it is `stopped`. -/
  | ready (stopped : Bool) (action : Action ν ε α)
  /-- It waits for its parts. Those in `awaited` have not been heard. -/
  | joined (n : Nat) (parts : Fin n → Task ν ε α) (stage : Stage ε) (awaited : List Nat)
      (next : (Fin n → α) → Action ν ε α)
  /-- It is over. -/
  | ended (outcome : Outcome ε α)

/-- What a task does in a turn. -/
inductive Act
  /-- It goes on. -/
  | resume
  /-- It hears that its part `i` has ended, when waiting for the first or, if `again`, for the second
  time. -/
  | hear (again : Bool) (i : Nat)
  deriving DecidableEq

/-- A turn of the task at `path`, the indices of the parts on the way from the root. -/
structure Turn where
  path : List Nat
  act : Act
  deriving DecidableEq

/-- The same turn, seen from one level further up. -/
def Turn.under (i : Nat) (turn : Turn) : Turn := { turn with path := i :: turn.path }

variable {ν ε α : Type}

namespace Task

/-- How a task ended, if it has. -/
def outcome? : Task ν ε α → Option (Outcome ε α)
  | ended outcome => some outcome
  | _ => none

/-- Whether a task is over. -/
def isEnded (t : Task ν ε α) : Bool := t.outcome?.isSome

/-- The value of a task, if it has ended with one. -/
def value? : Task ν ε α → Option α
  | ended (.ok value) => some value
  | _ => none

/-- Asks a task to stop. -/
def cancel : Task ν ε α → Task ν ε α
  | ended outcome => ended outcome
  | ready _ action => ready true action
  | joined n parts (.gathering stopped) awaited next =>
    if ∀ i, (parts i).isEnded then joined n parts (.gathering true) awaited next
    else joined n (Vector.ofFn fun i => (parts i).cancel).get (.gathering stopped) awaited next
  | joined n parts (.settled _) awaited next =>
    joined n parts (.settled (some .cancelled)) awaited next
  | joined n parts (.draining _) awaited next =>
    joined n (Vector.ofFn fun i => (parts i).cancel).get (.draining .cancelled) awaited next

/-- The parts that have ended. -/
def endedParts {n : Nat} (parts : Fin n → Task ν ε α) : List Nat :=
  ((List.finRange n).filter fun i => (parts i).isEnded).map Fin.val

/-- A task at the point where its action has to wait, with the turns this gives rise to. A pending
request to stop strikes a suspended task itself, and all parts of a joining one. -/
def ofHalt (stopped : Bool) : Halt ν ε α → Task ν ε α × List Turn
  | .ended outcome => (ended outcome, [])
  | .paused rest => (ready stopped rest, [⟨[], .resume⟩])
  | .forked n part next =>
    (joined n (fun i => ready stopped (part i)) (.gathering false) (List.range n) next,
      (List.range n).map fun i => ⟨[i], .resume⟩)

/-- Carries an action on until it has to wait. -/
def start (stopped : Bool) (action : Action ν ε α) (desk : Desk ν) :
    Task ν ε α × List Turn × Desk ν :=
  let (halt, desk) := action.advance desk
  let (task, turns) := ofHalt stopped halt
  (task, turns, desk)

/-- The task at `path` ends without a value. -/
def stopAt (path : List Nat) (stop : Stop ε) (desk : Desk ν) : Task ν ε α × List Turn × Desk ν :=
  (ended (.error stop), [],
    match stop with
    | .cancelled => desk.write (.cancelled path)
    | .error _ => desk)

/-- A task goes on. -/
def resume (path : List Nat) (t : Task ν ε α) (desk : Desk ν) : Task ν ε α × List Turn × Desk ν :=
  match t with
  | ready true _ => stopAt path .cancelled desk
  | ready false action => start false action desk
  | joined _ parts (.settled none) _ next =>
    if h : ∀ i, ((parts i).value?).isSome then
      start false (next fun i => (parts i).value?.get (h i)) desk
    else stopAt path .cancelled desk
  | joined n parts (.settled (some stop)) _ next =>
    (joined n (Vector.ofFn fun i => (parts i).cancel).get (.draining stop) (List.range n) next,
      (endedParts parts).map fun i => ⟨[], .hear true i⟩, desk)
  | joined n parts (.draining stop) awaited next =>
    if awaited = [] then stopAt path stop desk
    else (joined n parts (.draining stop) awaited next, [], desk)
  | t => (t, [], desk)

/-- A task that waits for the first time hears that its part `i` has ended. Once its join is decided,
this does not count. -/
def hearFirst (i : Nat) (t : Task ν ε α) : Task ν ε α × List Turn :=
  match t with
  | joined n parts (.gathering stopped) awaited next =>
    if h : i < n then
      match (parts ⟨i, h⟩).outcome? with
      | none => (joined n parts (.gathering stopped) awaited next, [])
      | some (.error stop) =>
        (joined n parts (.settled (some (if stopped then .cancelled else stop))) awaited next,
          [⟨[], .resume⟩])
      | some (.ok _) =>
        if i ∉ awaited then (joined n parts (.gathering stopped) awaited next, [])
        else if awaited.erase i = [] then
          (joined n parts (.settled (if stopped then some .cancelled else none)) [] next,
            [⟨[], .resume⟩])
        else (joined n parts (.gathering stopped) (awaited.erase i) next, [])
    else (joined n parts (.gathering stopped) awaited next, [])
  | t => (t, [])

/-- A task that waits for the second time hears that its part `i` has ended. How it ended does not
matter any more. -/
def hearAgain (i : Nat) (t : Task ν ε α) : Task ν ε α × List Turn :=
  match t with
  | joined n parts (.draining stop) awaited next =>
    if i ∉ awaited then (joined n parts (.draining stop) awaited next, [])
    else
      (joined n parts (.draining stop) (awaited.erase i) next,
        if awaited.erase i = [] then [⟨[], .resume⟩] else [])
  | t => (t, [])

/-- Carries out an act of the task at `whole`. -/
def perform (whole : List Nat) (t : Task ν ε α) (desk : Desk ν) :
    Act → Task ν ε α × List Turn × Desk ν
  | .resume => t.resume whole desk
  | .hear again i =>
    let (t, turns) := if again then t.hearAgain i else t.hearFirst i
    (t, turns, desk)

/-- The parts with the `i`-th one replaced. -/
def replace {n : Nat} (parts : Fin n → Task ν ε α) (i : Fin n) (part : Task ν ε α) :
    Fin n → Task ν ε α :=
  fun j => if j = i then part else parts j

/-- Carries out an act of the task at `path` below `t`. A part that ends in its turn lets its join
hear so. -/
def visit (whole : List Nat) (act : Act) : List Nat → Task ν ε α → Desk ν →
    Task ν ε α × List Turn × Desk ν
  | [], t, desk => t.perform whole desk act
  | i :: path, joined n parts stage awaited next, desk =>
    if h : i < n then
      let before := parts ⟨i, h⟩
      let (after, turns, desk) := visit whole act path before desk
      (joined n (Vector.ofFn (replace parts ⟨i, h⟩ after)).get stage awaited next,
        turns.map (Turn.under i) ++
          (if after.isEnded && !before.isEnded then [⟨[], .hear stage.isDraining i⟩] else []),
        desk)
    else (joined n parts stage awaited next, [], desk)
  | _ :: _, t, desk => (t, [], desk)

end Task

end RangeCalc.Loop
