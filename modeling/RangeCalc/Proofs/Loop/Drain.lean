import RangeCalc.Proofs.Loop.Outcome

/-!
# Stopped parts

A join that has failed stops the parts that have not ended and waits a second time for all of them.
Each stopped part still has a turn in the queue, at which it ends and says so in the record. So the
parts are recorded in the order of these turns, and the join ends with its failure only when all of
them are.

* `Drains`: the turns of the stopped parts, and the record that will be there in the end;
* `Drains.serve`: every turn keeps this or ends the join with the record complete.
-/

namespace RangeCalc.Loop

variable {ν ε α : Type}

/-- A turn that has been taken from the queue, when it is known what comes of it. -/
theorem State.serve_eq {s : State ν ε α} {turn : Turn} {task : Task ν ε α} {turns : List Turn}
    {desk : Desk ν} (h : s.task.visit turn.path turn.act turn.path s.desk = (task, turns, desk))
    (rest : Fifo Turn) : s.serve turn rest = ⟨task, rest.pushAll turns, desk⟩ := by
  rw [State.serve, h]

/-- The part of the root task that resumes in a turn. -/
def Turn.part? : Turn → Option Nat
  | ⟨[j], .resume⟩ => some j
  | _ => none

/-- A join waits for the second time, after the error `e`. The parts `stopped` have not ended, and
will be recorded in this order, which gives the record `final`. -/
structure Drains {n : Nat} (parts : Fin n → Task ν ε α) (awaited : List Nat)
    (next : (Fin n → α) → Action ν ε α) (e : ε) (stopped : List Nat) (final : List (Entry ν))
    (s : State ν ε α) : Prop where
  task : s.task = .joined n parts (.draining (.error e)) awaited next
  /-- There are turns of the root task, and turns in which a part resumes. -/
  turns : ∀ turn ∈ s.queue.toList, turn.path = [] ∨ ∃ j, turn = ⟨[j], .resume⟩
  /-- The parts that resume are the stopped ones. -/
  resumes : s.queue.toList.filterMap Turn.part? = stopped
  nodup : stopped.Nodup
  ready : ∀ j ∈ stopped, ∃ (h : j < n) (action : Action ν ε α), parts ⟨j, h⟩ = .ready true action
  /-- The root task has not heard of a stopped part and will not do so as long as it has not
  ended. -/
  awaits : ∀ j ∈ stopped, j ∈ awaited ∧ ⟨[], .hear true j⟩ ∉ s.queue.toList
  record : s.desk.record.reverse ++ stopped.map (fun j => .cancelled [j]) = final

namespace Drains

variable {n : Nat} {parts : Fin n → Task ν ε α} {awaited : List Nat}
  {next : (Fin n → α) → Action ν ε α} {e : ε} {stopped : List Nat} {final : List (Entry ν)}
  {s : State ν ε α} {turn : Turn} {rest : Fifo Turn}

/-- A turn of the root task that strikes no stopped part from the awaited ones. -/
theorem own {act : Act} (h : Drains parts awaited next e stopped final s)
    (pop : s.queue.toList = ⟨[], act⟩ :: rest.toList) {awaited' : List Nat} {turns : List Turn}
    (visit : s.task.visit [] act [] s.desk =
      (.joined n parts (.draining (.error e)) awaited' next, turns, s.desk))
    (keep : ∀ j ∈ stopped, j ∈ awaited') (again : ∀ turn ∈ turns, turn = ⟨[], .resume⟩) :
    Drains parts awaited' next e stopped final (s.serve ⟨[], act⟩ rest) := by
  have queue : ∀ turn ∈ (rest.pushAll turns).toList,
      turn ∈ s.queue.toList ∨ turn = ⟨[], .resume⟩ := by
    intro turn mem
    rw [Fifo.toList_pushAll, List.mem_append] at mem
    rw [pop]
    exact mem.imp (List.mem_cons_of_mem _) (again turn)
  have none : turns.filterMap Turn.part? = [] := by
    rw [List.filterMap_eq_nil_iff]
    intro turn mem
    rw [again turn mem]
    rfl
  rw [State.serve_eq visit]
  refine ⟨rfl, fun turn mem => ?_, ?_, h.nodup, h.ready, fun j mem => ⟨keep j mem, fun heard => ?_⟩,
    h.record⟩
  · rcases queue turn mem with mem | rfl
    · exact h.turns turn mem
    · exact .inl rfl
  · rw [← h.resumes, pop, Fifo.toList_pushAll, List.filterMap_append, none, List.append_nil]
    exact (List.filterMap_cons_none rfl).symm
  · rcases queue _ heard with heard | resume
    · exact (h.awaits j mem).2 heard
    · cases resume

/-- A stopped part ends in its turn. -/
theorem part {j : Nat} (h : Drains parts awaited next e stopped final s)
    (pop : s.queue.toList = ⟨[j], .resume⟩ :: rest.toList) :
    ∃ parts' stopped',
      Drains parts' awaited next e stopped' final (s.serve ⟨[j], .resume⟩ rest) := by
  have stopped_eq : stopped = j :: rest.toList.filterMap Turn.part? := by
    rw [← h.resumes, pop]
    exact List.filterMap_cons_some rfl
  obtain ⟨lt, action, ready⟩ := h.ready j (stopped_eq ▸ List.mem_cons_self)
  obtain ⟨others, nodup⟩ := List.nodup_cons.1 (stopped_eq ▸ h.nodup)
  have visit : s.task.visit [j] .resume [j] s.desk =
      (.joined n (Task.replace parts ⟨j, lt⟩ (.ended (.error .cancelled))) (.draining (.error e))
        awaited next, [⟨[], .hear true j⟩], s.desk.write (.cancelled [j])) := by
    rw [h.task, Task.visit, dif_pos lt, ready]
    simp [Task.visit, Task.perform, Task.resume, Task.stopAt, Task.isEnded, Task.outcome?,
      Stage.isDraining]
  have queue : ∀ turn ∈ rest.toList, turn ∈ s.queue.toList :=
    fun turn mem => pop ▸ List.mem_cons_of_mem _ mem
  have still : ∀ i ∈ rest.toList.filterMap Turn.part?, i ∈ stopped :=
    fun i mem => stopped_eq ▸ List.mem_cons_of_mem _ mem
  have ne : ∀ i ∈ rest.toList.filterMap Turn.part?, i ≠ j := by
    rintro i mem rfl
    exact others mem
  refine ⟨Task.replace parts ⟨j, lt⟩ (.ended (.error .cancelled)),
    rest.toList.filterMap Turn.part?, ?_⟩
  rw [State.serve_eq visit]
  refine ⟨rfl, ?_, ?_, nodup, fun i mem => ?_, fun i mem => ?_, ?_⟩
  · rw [Fifo.toList_pushAll, List.forall_mem_append, List.forall_mem_singleton]
    exact ⟨fun turn mem => h.turns turn (queue turn mem), .inl rfl⟩
  · rw [Fifo.toList_pushAll, List.filterMap_append]
    exact List.append_nil _
  · obtain ⟨lt', action', ready'⟩ := h.ready i (still i mem)
    refine ⟨lt', action', ?_⟩
    rw [Task.replace, if_neg (by simpa using ne i mem), ready']
  · obtain ⟨mem_awaited, unheard⟩ := h.awaits i (still i mem)
    refine ⟨mem_awaited, ?_⟩
    rw [Fifo.toList_pushAll, List.mem_append, List.mem_singleton]
    rintro (heard | eq)
    · exact unheard (queue _ heard)
    · cases eq
      exact others mem
  · rw [← h.record, stopped_eq]
    simp [Desk.write]

/-- A turn leaves the join waiting for its stopped parts, or ends it when all of them are
recorded. -/
theorem serve (h : Drains parts awaited next e stopped final s)
    (pop : s.queue.pop? = some (turn, rest)) :
    (∃ (parts' : Fin n → Task ν ε α) (awaited' stopped' : List Nat),
        Drains parts' awaited' next e stopped' final (s.serve turn rest)) ∨
      (s.serve turn rest).task = .ended (.error (.error e)) ∧
        (s.serve turn rest).desk.record.reverse = final := by
  have pop := Fifo.toList_of_pop?_eq_some pop
  have awaits : ∀ j ∈ stopped, j ∈ awaited := fun j mem => (h.awaits j mem).1
  rcases h.turns turn (pop ▸ List.mem_cons_self) with path | ⟨j, rfl⟩
  · obtain ⟨path, act⟩ := turn
    subst path
    cases act with
    | resume =>
      by_cases heard : awaited = []
      · -- A stopped part would be awaited, so all of them have been recorded.
        have none : stopped = [] := List.eq_nil_iff_forall_not_mem.2 fun j mem => by
          simpa [heard] using awaits j mem
        have visit : s.task.visit [] .resume [] s.desk =
            (.ended (.error (.error e)), [], s.desk) := by
          rw [h.task, heard]
          rfl
        rw [State.serve_eq visit]
        refine .inr ⟨rfl, ?_⟩
        rw [← h.record, none]
        exact (List.append_nil _).symm
      · refine .inl ⟨parts, awaited, stopped, h.own pop ?_ awaits (List.forall_mem_nil _)⟩
        rw [h.task, Task.visit, Task.perform, Task.resume, if_neg heard]
    | hear again i =>
      cases again with
      | false =>
        refine .inl ⟨parts, awaited, stopped, h.own pop ?_ awaits (List.forall_mem_nil _)⟩
        rw [h.task]
        rfl
      | true =>
        -- Only parts that have ended are heard of.
        have ended : ∀ j ∈ stopped, j ≠ i := by
          rintro j mem rfl
          exact (h.awaits j mem).2 (pop ▸ List.mem_cons_self)
        by_cases mem : i ∈ awaited
        · have visit : s.task.visit [] (.hear true i) [] s.desk =
              (.joined n parts (.draining (.error e)) (awaited.erase i) next,
                if awaited.erase i = [] then [⟨[], .resume⟩] else [], s.desk) := by
            rw [h.task, Task.visit, Task.perform, if_pos rfl, Task.hearAgain,
              if_neg (not_not_intro mem)]
          have keep : ∀ j ∈ stopped, j ∈ awaited.erase i :=
            fun j hj => (List.mem_erase_of_ne (ended j hj)).2 (awaits j hj)
          refine .inl ⟨parts, awaited.erase i, stopped, h.own pop visit keep ?_⟩
          split
          · exact List.forall_mem_singleton.2 rfl
          · exact List.forall_mem_nil _
        · refine .inl ⟨parts, awaited, stopped, h.own pop ?_ awaits (List.forall_mem_nil _)⟩
          rw [h.task, Task.visit, Task.perform, if_pos rfl, Task.hearAgain, if_pos mem]
  · obtain ⟨parts', stopped', drains⟩ := h.part pop
    exact .inl ⟨parts', awaited, stopped', drains⟩

end Drains

end RangeCalc.Loop
