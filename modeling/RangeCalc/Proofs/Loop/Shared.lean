import Mathlib.Data.List.ReduceOption
import RangeCalc.Loop.Shared

/-!
# A guest does not disturb

A guest shares the queue with the tasks of an action, and nothing else. Without its turns the queue
is that of a loop without a guest, turn by turn, so the action comes to the same end: what the
guest does, and when, has no influence on which of several failures is the first.

* `Shared.Alongside`: a shared loop next to one that serves the same tasks without a guest;
* `Shared.run_fst`: next to a guest, an action comes to what it comes to alone;
* `Shared.run_snd`: what a turn of the guest keeps, the whole run keeps.
-/

namespace RangeCalc.Loop.Shared

variable {ν ε α σ : Type} {visit : σ → σ}

/-- The turns of tasks are all turns but those of the guest. -/
theorem reduceOption_map_some (turns : List Turn) : (turns.map some).reduceOption = turns := by
  rw [List.reduceOption, List.filterMap_map]
  exact List.filterMap_some

/-- A shared loop, next to a loop without a guest that is at the same point. -/
structure Alongside (s : State ν ε α σ) (alone : Loop.State ν ε α) : Prop where
  task : s.task = alone.task
  /-- Without the turns of the guest, the queues are the same. -/
  queue : s.queue.toList.reduceOption = alone.queue.toList
  desk : s.desk = alone.desk

namespace Alongside

variable {s : State ν ε α σ} {alone : Loop.State ν ε α} {rest : Fifo (Option Turn)}

/-- The loop without a guest does not notice a turn of the guest. -/
theorem serve_guest (h : Alongside s alone) (pop : s.queue.pop? = some (none, rest)) :
    Alongside (s.serve visit none rest) alone := by
  refine ⟨h.task, ?_, h.desk⟩
  rw [← h.queue, Fifo.toList_of_pop?_eq_some pop, List.reduceOption_cons_of_none]
  rfl

/-- A turn of a task is the next turn in both loops, and leaves them at the same point. -/
theorem serve_task (visit : σ → σ) (h : Alongside s alone) {turn : Turn}
    (pop : s.queue.pop? = some (some turn, rest)) :
    ∃ rest', alone.queue.pop? = some (turn, rest') ∧
      Alongside (s.serve visit (some turn) rest) (alone.serve turn rest') := by
  have waiting : alone.queue.toList = turn :: rest.toList.reduceOption := by
    rw [← h.queue, Fifo.toList_of_pop?_eq_some pop, List.reduceOption_cons_of_some]
  cases pop' : alone.queue.pop? with
  | none =>
    rw [Fifo.pop?_eq_none_iff.1 pop'] at waiting
    cases waiting
  | some next =>
    obtain ⟨turn', rest'⟩ := next
    rw [Fifo.toList_of_pop?_eq_some pop'] at waiting
    obtain ⟨rfl, same⟩ := List.cons.inj waiting
    refine ⟨rest', rfl, ?_⟩
    simp only [State.serve, Loop.State.serve, h.task, h.desk]
    refine ⟨rfl, ?_, rfl⟩
    rw [Fifo.toList_pushAll, Fifo.toList_pushAll, List.reduceOption_append, same,
      reduceOption_map_some]

/-- The two loops come to their ends at the same point. -/
theorem settle (visit : σ → σ) (h : Alongside s alone) :
    Alongside (s.settle visit) alone.settle := by
  fun_induction State.settle visit s generalizing alone with
  | case1 s ended =>
    rw [h.task] at ended
    rwa [Loop.State.settle_of_isEnded ended]
  | case2 s live empty =>
    have none_left : alone.queue.pop? = none := by
      rw [Fifo.pop?_eq_none_iff, ← h.queue, Fifo.pop?_eq_none_iff.1 empty, List.reduceOption_nil]
    rwa [Loop.State.settle_of_none none_left]
  | case3 s live turn rest pop ih =>
    cases turn with
    | none => exact ih (h.serve_guest pop)
    | some turn =>
      obtain ⟨rest', pop', next⟩ := h.serve_task visit pop
      rw [h.task] at live
      rw [Loop.State.settle_of_pop live pop']
      exact ih next

end Alongside

/-- What a turn of the guest keeps, the loop keeps. -/
theorem State.guest_settle {P : σ → Prop} (keep : ∀ guest, P guest → P (visit guest))
    {s : State ν ε α σ} (h : P s.guest) : P (s.settle visit).guest := by
  fun_induction State.settle visit s with
  | case1 => exact h
  | case2 => exact h
  | case3 s live turn rest pop ih =>
    cases turn with
    | none => exact ih (keep _ h)
    | some turn => exact ih h

/-- The first step of an action is the same with a guest and without. -/
theorem alongside_begin (due : Bool) (guest : σ) (interrupted : Bool) (action : Action ν ε α)
    (desk : Desk ν) :
    Alongside (begin due guest interrupted action desk) (Loop.begin interrupted action desk) := by
  refine ⟨rfl, ?_, rfl⟩
  cases due <;>
    simp [begin, Loop.begin, reduceOption_map_some, List.reduceOption_cons_of_none]

/-- Next to a guest, an action comes to what it comes to alone. -/
theorem run_fst (visit : σ → σ) (due : Bool) (guest : σ) (interrupted : Bool)
    (action : Action ν ε α) (desk : Desk ν) :
    (run visit due guest interrupted action desk).1 = Loop.run interrupted action desk := by
  have first := alongside_begin due guest interrupted action desk
  have last := first.settle visit
  simp only [run, Loop.run, last.task, last.desk, first.task]

/-- What a turn of the guest keeps, a run next to it keeps. -/
theorem run_snd {P : σ → Prop} (keep : ∀ guest, P guest → P (visit guest)) (due : Bool) {guest : σ}
    (h : P guest) (interrupted : Bool) (action : Action ν ε α) (desk : Desk ν) :
    P (run visit due guest interrupted action desk).2 :=
  State.guest_settle keep h

end RangeCalc.Loop.Shared
