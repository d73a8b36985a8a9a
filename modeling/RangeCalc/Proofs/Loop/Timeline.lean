import Mathlib.Tactic.Choose
import RangeCalc.Proofs.Loop.Drain
import RangeCalc.Proofs.Loop.Record

/-!
# The timeline of a join

A join of jobs goes through phases. As long as it has heard of no failure, it gathers the values of
the jobs, each of which has its turns in the queue. The first failure it hears of decides it; it
then has to wait for a turn itself, while the jobs go on as before. In that turn it stops those that
have not ended, and waits for them. Each phase is described by the turns the jobs have had and by
the queue, so what comes of the next turn can be told, and in the end what has come of all of them.

* `Job.Underway`: the join and its jobs before the join has stopped any of them;
* `Job.Phase`: the phases;
* `Job.Phase.serve`: every turn leads from a phase to a phase;
* `Job.runAll_timeline`: the outcome and the record of joined jobs.
-/

namespace RangeCalc.Loop

/-- A join with parts waits for them. -/
theorem Action.advance_join {ν ε α : Type} {n : Nat} (h : n ≠ 0) (part : Fin n → Action ν ε α)
    (next : (Fin n → α) → Action ν ε α) (desk : Desk ν) :
    (join n part next).advance desk = (.forked n part next, desk) := by
  cases n with
  | zero => exact absurd rfl h
  | succ n => rfl

namespace Job

variable {β : Type} {jobs : List (Job β)}

/-! ## Jobs that have not been stopped -/

/-- The join and its jobs, after so many turns of each of them, with these jobs in the queue. -/
structure Underway (jobs : List (Job β)) (stage : Stage Text) (awaited : List Nat)
    (turns : Fin jobs.length → Nat) (queue : List (Fin jobs.length))
    (s : State JobNote Text (List β)) : Prop where
  task : s.task = joining jobs stage awaited turns
  pending : s.queue.toList = queue.map fun j => (jobs.get j).turn j (turns j)
  lineup : Lineup (fun j => (jobs.get j).yields) turns queue
  logged : ∃ record, Records s.desk record ∧ Logged jobs turns record

/-- Once a job has ended, more turns do not change its task. -/
theorem joining_tick {turns : Fin jobs.length → Nat} {j : Fin jobs.length}
    (ended : (jobs.get j).yields < turns j) (stage : Stage Text) (awaited : List Nat) :
    joining jobs stage awaited (tick turns j) = joining jobs stage awaited turns := by
  have same : parts jobs (tick turns j) = parts jobs turns := by
    funext i
    by_cases eq : i = j
    · subst eq
      rw [parts, parts, tick_self, part_of_lt ended, part_of_lt (Nat.lt_succ_of_lt ended)]
    · rw [parts, parts, tick_of_ne eq]
  rw [joining, joining, same]

namespace Underway

variable {stage stage' : Stage Text} {awaited awaited' : List Nat} {turns : Fin jobs.length → Nat}
  {queue : List (Fin jobs.length)} {j : Fin jobs.length} {s : State JobNote Text (List β)}
  {turn : Turn} {rest : Fifo Turn}

/-- The turn at the front of the queue is that of the first job. -/
theorem turn_eq (h : Underway jobs stage awaited turns (j :: queue) s)
    (pop : s.queue.pop? = some (turn, rest)) :
    turn = (jobs.get j).turn j (turns j) ∧
      rest.toList = queue.map fun j => (jobs.get j).turn j (turns j) := by
  have front := (Fifo.toList_of_pop?_eq_some pop).symm.trans h.pending
  exact List.cons.inj front

/-- The first job has its turn and leaves the queue, or goes to its end. -/
theorem next (h : Underway jobs stage awaited turns (j :: queue) s)
    (pop : s.queue.pop? = some (turn, rest)) {new : List Turn} {after : Desk JobNote}
    (visit : s.task.visit turn.path turn.act turn.path s.desk =
      (joining jobs stage' awaited' (tick turns j), new, after))
    (records : ∀ record, Records s.desk record →
      Records after (record ++ (jobs.get j).notes j (turns j)))
    {back : List (Fin jobs.length)}
    (lineup : Lineup (fun j => (jobs.get j).yields) (tick turns j) (queue ++ back))
    (new_eq : new = back.map fun j' => (jobs.get j').turn j' (tick turns j j')) :
    Underway jobs stage' awaited' (tick turns j) (queue ++ back) (s.serve turn rest) := by
  obtain ⟨record, hrecord, logged⟩ := h.logged
  rw [State.serve_eq visit]
  refine ⟨rfl, ?_, lineup, _, records record hrecord, logged.tick h.lineup.ne_zero_of_lt⟩
  rw [Fifo.toList_pushAll, (h.turn_eq pop).2, new_eq, List.map_append]
  congr 1
  refine List.map_congr_left fun i hi => ?_
  rw [h.lineup.tick_of_mem hi]

/-- A job that has not ended goes on. -/
theorem resume (h : Underway jobs stage awaited turns (j :: queue) s)
    (first : stage.isDraining = false) (le : turns j ≤ (jobs.get j).yields)
    (pop : s.queue.pop? = some (turn, rest)) :
    Underway jobs stage awaited (tick turns j) (queue ++ [j]) (s.serve turn rest) := by
  obtain ⟨record, records, logged⟩ := h.logged
  obtain ⟨after, records', visit⟩ := exists_visit_resume first awaited le records
  have turn_eq := (h.turn_eq pop).1
  rw [turn_resume le] at turn_eq
  subst turn_eq
  refine h.next pop (by rw [h.task]; exact visit) (fun record' hrecord' => ?_) h.lineup.requeue ?_
  · rwa [← hrecord'.record, records.record]
  · rw [List.map_singleton, tick_self]

/-- The join hears of the end of a job. -/
theorem hear (h : Underway jobs stage awaited turns (j :: queue) s)
    (ended : turns j = (jobs.get j).yields + 1) (pop : s.queue.pop? = some (turn, rest))
    {new : List Turn}
    (heard : (joining jobs stage awaited turns).hearFirst j =
      (joining jobs stage' awaited' turns, new)) {back : List (Fin jobs.length)}
    (lineup : Lineup (fun j => (jobs.get j).yields) (tick turns j) (queue ++ back))
    (new_eq : new = back.map fun j' => (jobs.get j').turn j' (tick turns j j')) :
    Underway jobs stage' awaited' (tick turns j) (queue ++ back) (s.serve turn rest) := by
  have lt : (jobs.get j).yields < turns j := by omega
  have turn_eq := (h.turn_eq pop).1
  rw [turn_hear ended] at turn_eq
  subst turn_eq
  have visit : s.task.visit [] (.hear false j) [] s.desk =
      (joining jobs stage' awaited' (tick turns j), new, s.desk) := by
    rw [h.task, joining_tick lt, Task.visit, Task.perform, if_neg Bool.false_ne_true, heard]
  refine h.next pop visit (fun record records => ?_) lineup new_eq
  rwa [notes_of_lt lt, List.append_nil]

end Underway

/-! ## What the join hears -/

section

variable {turns : Fin jobs.length → Nat} {j : Fin jobs.length}

theorem outcome?_parts (ended : (jobs.get j).yields < turns j) :
    (parts jobs turns ⟨j, j.isLt⟩).outcome? = some (jobs.get j).outcome := by
  rw [Fin.eta, parts, part_of_lt ended]
  rfl

/-- The join hears of a failure, which decides it. -/
theorem hearFirst_of_error (ended : (jobs.get j).yields < turns j) {message : Text}
    (error : (jobs.get j).result = .error message) (awaited : List Nat) :
    (joining jobs (.gathering false) awaited turns).hearFirst j =
      (joining jobs (.settled (some (.error message))) awaited turns, [⟨[], .resume⟩]) := by
  have outcome : (parts jobs turns ⟨j, j.isLt⟩).outcome? = some (.error (.error message)) := by
    rw [outcome?_parts ended, Job.outcome, error]
  rw [joining, Task.hearFirst, dif_pos j.isLt, outcome]
  rfl

/-- The join hears of a value, which decides it if it is the last. -/
theorem hearFirst_of_ok (ended : (jobs.get j).yields < turns j) {value : β}
    (ok : (jobs.get j).result = .ok value) {awaited : List Nat} (mem : j.val ∈ awaited) :
    (joining jobs (.gathering false) awaited turns).hearFirst j =
      if awaited.erase j = [] then (joining jobs (.settled none) [] turns, [⟨[], .resume⟩])
      else (joining jobs (.gathering false) (awaited.erase j) turns, []) := by
  have outcome : (parts jobs turns ⟨j, j.isLt⟩).outcome? = some (.ok [value]) := by
    rw [outcome?_parts ended, Job.outcome, ok]
  rw [joining, Task.hearFirst, dif_pos j.isLt, outcome]
  simp only [if_neg (not_not_intro mem)]
  rfl

end

/-! ## Stopping the jobs -/

section

/-- A job goes on, the join hears of its end, or the join resumes. -/
theorem turn_cases (job : Job β) (i turns : Nat) :
    job.turn i turns = ⟨[i], .resume⟩ ∨ job.turn i turns = ⟨[], .hear false i⟩ ∨
      job.turn i turns = ⟨[], .resume⟩ := by
  rw [turn]
  split
  · exact .inl rfl
  · split
    · exact .inr (.inl rfl)
    · exact .inr (.inr rfl)

theorem turn_ne_hear (job : Job β) (i turns j : Nat) : job.turn i turns ≠ ⟨[], .hear true j⟩ := by
  intro eq
  rcases turn_cases job i turns with turn_eq | turn_eq | turn_eq
  all_goals
    rw [turn_eq] at eq
    cases eq

theorem part?_turn (job : Job β) (i turns : Nat) :
    (job.turn i turns).part? = if turns ≤ job.yields then some i else none := by
  rw [turn]
  split
  · rfl
  · split <;> rfl

variable {message : Text} {awaited : List Nat} {turns : Fin jobs.length → Nat}
  {f : Fin jobs.length} {queue : List (Fin jobs.length)} {s : State JobNote Text (List β)}
  {turn : Turn} {rest : Fifo Turn} {record : List (Entry JobNote)}

/-- The jobs that resume are those that have not ended. -/
theorem filterMap_part?_turns (turns : Fin jobs.length → Nat) (queue : List (Fin jobs.length)) :
    (queue.map fun j => (jobs.get j).turn j (turns j)).filterMap Turn.part? =
      (queue.filter fun j => turns j ≤ (jobs.get j).yields).map Fin.val := by
  induction queue with
  | nil => rfl
  | cons j queue ih =>
    have part := part?_turn (jobs.get j) j (turns j)
    rw [List.map_cons]
    by_cases le : turns j ≤ (jobs.get j).yields
    · rw [if_pos le] at part
      rw [List.filterMap_cons_some part, ih, List.filter_cons_of_pos (by simpa using le),
        List.map_cons]
    · rw [if_neg le] at part
      rw [List.filterMap_cons_none part, ih, List.filter_cons_of_neg (by simpa using le)]

/-- The join resumes after a failure and stops the jobs that have not ended. -/
theorem Underway.drains
    (h : Underway jobs (.settled (some (.error message))) awaited turns (f :: queue) s)
    (resumes : turns f = (jobs.get f).yields + 2) (records : Records s.desk record)
    (pop : s.queue.pop? = some (turn, rest)) :
    Drains (fun j => (parts jobs turns j).cancel) (List.range jobs.length)
      (fun values => .ret (List.ofFn values).flatten) message ((stoppedBy jobs f).map Fin.val)
      (record ++ (stoppedBy jobs f).map fun j => .cancelled [j.val]) (s.serve turn rest) := by
  obtain ⟨turn_eq, rest_eq⟩ := h.turn_eq pop
  rw [turn_decided resumes] at turn_eq
  subst turn_eq
  have visit : s.task.visit [] .resume [] s.desk =
      (.joined jobs.length (fun j => (parts jobs turns j).cancel) (.draining (.error message))
        (List.range jobs.length) (fun values => .ret (List.ofFn values).flatten),
        (Task.endedParts (parts jobs turns)).map fun i => ⟨[], .hear true i⟩, s.desk) := by
    rw [h.task, joining, Task.visit, Task.perform, Task.resume, Task.get_ofFn]
  -- The jobs that are stopped have not ended.
  have live : ∀ j ∈ stoppedBy jobs f,
      parts jobs turns j = .ready false ((jobs.get j).rest j (turns j)) := by
    intro j mem
    exact part_of_le ((mem_queue_and_le_iff h.lineup resumes j).2 (mem_stoppedBy.1 mem)).2 j
  rw [State.serve_eq visit]
  refine ⟨rfl, ?_, ?_, nodup_stoppedBy.map Fin.val_injective, fun i mem => ?_, fun i mem => ?_, ?_⟩
  · rw [Fifo.toList_pushAll, rest_eq, List.forall_mem_append]
    refine ⟨fun turn mem => ?_, fun turn mem => ?_⟩
    · obtain ⟨j, -, rfl⟩ := List.mem_map.1 mem
      rcases turn_cases (jobs.get j) j (turns j) with eq | eq | eq
      · exact .inr ⟨j, eq⟩
      · exact .inl (by rw [eq])
      · exact .inl (by rw [eq])
    · obtain ⟨j, -, rfl⟩ := List.mem_map.1 mem
      exact .inl rfl
  · have none (heard : List Nat) :
        (heard.map fun i => (⟨[], .hear true i⟩ : Turn)).filterMap Turn.part? = [] := by
      rw [List.filterMap_map, List.filterMap_eq_nil_iff]
      exact fun _ _ => rfl
    rw [Fifo.toList_pushAll, rest_eq, List.filterMap_append, none, List.append_nil,
      filterMap_part?_turns, filter_queue_eq_stoppedBy h.lineup resumes]
  · obtain ⟨j, late, rfl⟩ := List.mem_map.1 mem
    refine ⟨j.isLt, (jobs.get j).rest j (turns j), ?_⟩
    rw [Fin.eta, live j late, Task.cancel]
  · obtain ⟨j, late, rfl⟩ := List.mem_map.1 mem
    refine ⟨List.mem_range.2 j.isLt, ?_⟩
    rw [Fifo.toList_pushAll, rest_eq, List.mem_append, List.mem_map, List.mem_map]
    rintro (⟨i, -, eq⟩ | ⟨i, ended, eq⟩)
    · exact turn_ne_hear _ _ _ _ eq
    · cases eq
      obtain ⟨i, ended, same⟩ := List.mem_map.1 ended
      have ended := (List.mem_filter.1 ended).2
      rw [Fin.ext same, live j late] at ended
      cases ended
  · rw [records.record, List.map_map]
    rfl

end

/-! ## The phases -/

/-- The phases of a join of jobs. -/
inductive Phase (jobs : List (Job β)) (s : State JobNote Text (List β)) : Prop
  /-- The join has not heard of a failure. -/
  | gathering {awaited : List Nat} {turns : Fin jobs.length → Nat}
      {queue : List (Fin jobs.length)}
      (underway : Underway jobs (.gathering false) awaited turns queue s)
      (le : ∀ j ∈ queue, turns j ≤ (jobs.get j).yields + 1)
      (ok : ∀ j ∉ queue, ∃ value, (jobs.get j).result = .ok value)
      (perm : awaited.Perm (queue.map Fin.val))
  /-- The join has heard of the first failure, and will resume in the place of the job. -/
  | decided {f : Fin jobs.length} {message : Text} {awaited : List Nat}
      {turns : Fin jobs.length → Nat} {queue : List (Fin jobs.length)}
      (underway : Underway jobs (.settled (some (.error message))) awaited turns queue s)
      (failure : FirstFailure jobs f message) (resumes : turns f = (jobs.get f).yields + 2)
      (le : ∀ j ∈ queue, j ≠ f → turns j ≤ (jobs.get j).yields + 1)
  /-- The join has stopped the jobs that had not ended. -/
  | draining {n : Nat} {parts : Fin n → Task JobNote Text (List β)} {awaited : List Nat}
      {next : (Fin n → List β) → Action JobNote Text (List β)} {message : Text}
      {stopped : List Nat} {final : List (Entry JobNote)}
      (drains : Drains parts awaited next message stopped final s)
      (timeline : Timeline jobs (.error (.error message)) final)
  /-- The join has heard of the values of all jobs. -/
  | gathered {values : Fin jobs.length → β} {turns : Fin jobs.length → Nat}
      (task : s.task = joining jobs (.settled none) [] turns)
      (parts_eq : parts jobs turns = fun j => .ended (.ok [values j]))
      (queue : s.queue.toList = [⟨[], .resume⟩])
      (timeline : Timeline jobs (.ok (List.ofFn values)) s.desk.record.reverse)
  /-- The join is over. -/
  | finished {outcome : Outcome Text (List β)} (task : s.task = .ended outcome)
      (timeline : Timeline jobs outcome s.desk.record.reverse)

namespace Phase

variable {s : State JobNote Text (List β)} {turn : Turn} {rest : Fifo Turn} {awaited : List Nat}
  {turns : Fin jobs.length → Nat} {j : Fin jobs.length} {queue : List (Fin jobs.length)}

/-- The first failure that is heard of is the first failure. -/
theorem firstFailure (lineup : Lineup (fun j => (jobs.get j).yields) turns (j :: queue))
    (ended : turns j = (jobs.get j).yields + 1)
    (le : ∀ i ∈ queue, turns i ≤ (jobs.get i).yields + 1)
    (ok : ∀ i ∉ j :: queue, ∃ value, (jobs.get i).result = .ok value) {message : Text}
    (error : (jobs.get j).result = .error message) : FirstFailure jobs j message := by
  refine ⟨error, fun i message' error' => ?_⟩
  rcases eq_or_ne i j with rfl | ne
  · exact le_refl _
  · -- A job that has been heard of has not failed, so this one is still in the queue.
    have mem : i ∈ queue := by
      by_contra not_mem
      obtain ⟨value, ok⟩ := ok i (List.not_mem_cons_of_ne_of_not_mem ne not_mem)
      rw [ok] at error'
      cases error'
    have later := (lineup.precedes mem).toLex_lt
    have bound := le i mem
    rw [ended, Prod.Lex.toLex_lt_toLex] at later
    rw [stamp, stamp, Prod.Lex.toLex_le_toLex]
    simp only at later ⊢
    omega

/-- The join hears of the last value. -/
theorem of_last (underway : Underway jobs (.settled none) [] turns [j] s)
    (last : turns j = (jobs.get j).yields + 2)
    (ok : ∀ i, ∃ value, (jobs.get i).result = .ok value) : Phase jobs s := by
  have ended : ∀ i, (jobs.get i).yields < turns i := by
    intro i
    rcases eq_or_ne i j with rfl | ne
    · omega
    · have gone := (underway.lineup.left i (by simpa using ne)).1
      omega
  obtain ⟨record, records, logged⟩ := underway.logged
  choose values ok using ok
  refine .gathered underway.task (funext fun i => ?_) ?_
    (records.record ▸ timeline_of_ok ok ended logged)
  · rw [parts, part_of_lt (ended i), Job.outcome, ok]
  · rw [underway.pending, List.map_singleton, turn_decided last]

/-- A turn of a join that has not heard of a failure. -/
theorem serve_gathering (underway : Underway jobs (.gathering false) awaited turns (j :: queue) s)
    (le : ∀ i ∈ j :: queue, turns i ≤ (jobs.get i).yields + 1)
    (ok : ∀ i ∉ j :: queue, ∃ value, (jobs.get i).result = .ok value)
    (perm : awaited.Perm ((j :: queue).map Fin.val)) (pop : s.queue.pop? = some (turn, rest)) :
    Phase jobs (s.serve turn rest) := by
  have lineup := underway.lineup
  obtain ⟨le_j, le_queue⟩ := List.forall_mem_cons.1 le
  rcases Nat.lt_or_eq_of_le le_j with lt | ended
  · -- The job goes on.
    refine .gathering (underway.resume rfl (Nat.le_of_lt_succ lt) pop)
      (lineup.forall_requeue (P := fun i n => n ≤ (jobs.get i).yields + 1) lt le_queue)
      (fun i not_mem => ok i fun mem => not_mem ?_) ?_
    · exact List.perm_append_singleton j queue |>.mem_iff.2 mem
    · exact perm.trans ((List.perm_append_singleton j queue).symm.map Fin.val)
  · -- The join hears of its end.
    have lt : (jobs.get j).yields < turns j := by omega
    have resumes : [(⟨[], .resume⟩ : Turn)] =
        [j].map fun i => (jobs.get i).turn i (tick turns j i) := by
      rw [List.map_singleton, tick_self, turn_decided (by omega)]
    cases result : (jobs.get j).result with
    | error message =>
      refine .decided (underway.hear ended pop (hearFirst_of_error lt result awaited)
        lineup.requeue resumes) (firstFailure lineup ended le_queue ok result) ?_ ?_
      · rw [tick_self, ended]
      · exact lineup.forall_requeue (P := fun i n => i ≠ j → n ≤ (jobs.get i).yields + 1)
          (fun ne => absurd rfl ne) fun i mem _ => le_queue i mem
    | ok value =>
      have heard := hearFirst_of_ok lt result (perm.mem_iff.2 List.mem_cons_self)
      have perm : (awaited.erase j).Perm (queue.map Fin.val) := by
        simpa using perm.erase j.val
      have ok : ∀ i ∉ queue, ∃ value, (jobs.get i).result = .ok value := by
        intro i not_mem
        rcases eq_or_ne i j with rfl | ne
        · exact ⟨value, result⟩
        · exact ok i (List.not_mem_cons_of_ne_of_not_mem ne not_mem)
      by_cases last : awaited.erase j = []
      · rw [if_pos last] at heard
        obtain rfl : queue = [] := by simpa [last] using perm
        refine of_last (underway.hear ended pop heard lineup.requeue resumes) ?_
          fun i => ok i List.not_mem_nil
        rw [tick_self, ended]
      · rw [if_neg last] at heard
        have leave := lineup.leave ended
        rw [← List.append_nil queue] at leave ok perm
        refine .gathering (underway.hear ended pop heard leave rfl) (fun i mem => ?_) ok perm
        rw [List.append_nil] at mem
        rw [lineup.tick_of_mem mem]
        exact le_queue i mem

/-- A turn of a join that has heard of a failure. -/
theorem serve_decided {f : Fin jobs.length} {message : Text}
    (underway : Underway jobs (.settled (some (.error message))) awaited turns (j :: queue) s)
    (failure : FirstFailure jobs f message) (resumes : turns f = (jobs.get f).yields + 2)
    (le : ∀ i ∈ j :: queue, i ≠ f → turns i ≤ (jobs.get i).yields + 1)
    (pop : s.queue.pop? = some (turn, rest)) : Phase jobs (s.serve turn rest) := by
  have lineup := underway.lineup
  obtain ⟨le_j, le_queue⟩ := List.forall_mem_cons.1 le
  rcases eq_or_ne j f with rfl | ne
  · obtain ⟨record, records, logged⟩ := underway.logged
    exact .draining (underway.drains resumes records pop)
      (timeline_of_error lineup resumes failure logged)
  · have resumes : tick turns j f = (jobs.get f).yields + 2 := by
      rwa [tick_of_ne ne.symm]
    rcases Nat.lt_or_eq_of_le (le_j ne) with lt | ended
    · refine .decided (underway.resume rfl (Nat.le_of_lt_succ lt) pop) failure resumes ?_
      exact lineup.forall_requeue (P := fun i n => i ≠ f → n ≤ (jobs.get i).yields + 1)
        (fun _ => lt) le_queue
    · -- What the join hears now does not count.
      have leave := lineup.leave ended
      rw [← List.append_nil queue] at leave
      refine .decided (underway.hear ended pop rfl leave rfl) failure resumes fun i mem => ?_
      rw [List.append_nil] at mem
      rw [lineup.tick_of_mem mem]
      exact le_queue i mem

/-- A turn of a join that has heard of all values. -/
theorem serve_gathered {values : Fin jobs.length → β}
    (task : s.task = joining jobs (.settled none) [] turns)
    (parts_eq : parts jobs turns = fun j => .ended (.ok [values j]))
    (queue : s.queue.toList = [⟨[], .resume⟩])
    (timeline : Timeline jobs (.ok (List.ofFn values)) s.desk.record.reverse)
    (pop : s.queue.pop? = some (turn, rest)) : Phase jobs (s.serve turn rest) := by
  have front := (Fifo.toList_of_pop?_eq_some pop).symm.trans queue
  obtain rfl := (List.cons.inj front).1
  have joined : (List.ofFn fun i => [values i]).flatten = List.ofFn values := by
    rw [List.ofFn_eq_map, List.ofFn_eq_map, List.map_eq_flatMap (f := values), List.flatMap_def]
  have some : ∀ i,
      (Task.ended (.ok [values i]) : Task JobNote Text (List β)).value?.isSome = true :=
    fun _ => rfl
  have visit : s.task.visit [] .resume [] s.desk =
      (.ended (.ok (List.ofFn values)), [], s.desk) := by
    rw [task, joining, parts_eq, Task.visit, Task.perform, Task.resume,
      dif_pos some, ← joined]
    rfl
  rw [State.serve_eq visit]
  exact .finished rfl timeline

/-- Every turn leads from a phase to a phase. -/
theorem serve (phase : Phase jobs s) (live : ¬s.task.isEnded)
    (pop : s.queue.pop? = some (turn, rest)) : Phase jobs (s.serve turn rest) := by
  have some_turn : s.queue.toList ≠ [] := by
    rw [Fifo.toList_of_pop?_eq_some pop]
    exact List.cons_ne_nil _ _
  cases phase with
  | @gathering awaited turns queue underway le ok perm =>
    cases queue with
    | nil => exact absurd underway.pending some_turn
    | cons j queue => exact serve_gathering underway le ok perm pop
  | @decided f message awaited turns queue underway failure resumes le =>
    cases queue with
    | nil => exact absurd underway.pending some_turn
    | cons j queue => exact serve_decided underway failure resumes le pop
  | draining drains timeline =>
    rcases drains.serve pop with ⟨parts', awaited', stopped', drains'⟩ | ⟨task, record⟩
    · exact .draining drains' timeline
    · exact .finished task (record ▸ timeline)
  | gathered task parts_eq queue timeline => exact serve_gathered task parts_eq queue timeline pop
  | finished task timeline =>
    rw [task] at live
    exact absurd rfl live

end Phase

/-- The join starts by waiting for its jobs, if there are any. -/
theorem phase_begin (jobs : List (Job β)) :
    Phase jobs (begin false (joinAll jobs) ⟨.ofInterval 1, []⟩) := by
  by_cases none : jobs = []
  · subst none
    have task : (begin false (joinAll []) ⟨.ofInterval 1, []⟩).task =
        (.ended (.ok []) : Task JobNote Text (List β)) := rfl
    exact .finished task ⟨rfl, nofun, .inl ⟨[], rfl, rfl, nofun⟩⟩
  · have ready : parts jobs (fun _ => 0) = fun j => .ready false ((jobs.get j).action j) :=
      funext fun j => part_of_le (Nat.zero_le _) j
    have state : begin false (joinAll jobs) ⟨.ofInterval 1, []⟩ =
        ⟨joining jobs (.gathering false) (List.range jobs.length) fun _ => 0,
          .ofList ((List.range jobs.length).map fun i => ⟨[i], .resume⟩), ⟨.ofInterval 1, []⟩⟩ := by
      rw [begin, Task.start_eq, joinAll, Action.advance_join (by simpa using none), joining, ready]
      rfl
    rw [state]
    refine .gathering ⟨rfl, ?_, .start _, [], ⟨rfl, rfl⟩, .start jobs⟩ (fun _ _ => Nat.zero_le _)
      (fun j hj => absurd (List.mem_finRange j) hj) ?_
    · rw [Fifo.toList_ofList, ← List.map_coe_finRange_eq_range, List.map_map]
      exact List.map_congr_left fun j _ => (turn_resume (Nat.zero_le _) j).symm
    · rw [List.map_coe_finRange_eq_range]

/-- Jobs that are joined start in order, and each of them comes to its end or is stopped. If none of
them fails, the join returns their values in order. Otherwise it fails as the first of them does,
and the jobs that are stopped are those that would come to their end more than two rounds later,
first the ones behind it, then the ones in front of it. -/
theorem runAll_timeline (jobs : List (Job β)) : Timeline jobs (runAll jobs).1 (runAll jobs).2 := by
  have phase : Phase jobs (begin false (joinAll jobs) ⟨.ofInterval 1, []⟩).settle :=
    State.settle_induction (fun s turn rest phase live pop => phase.serve live pop) _
      (phase_begin jobs)
  -- The loop comes to an end, and in all phases but one the join is not over.
  have ended := settle_begin false (joinAll jobs) ⟨.ofInterval 1, []⟩
  cases phase with
  | gathering underway =>
    rw [underway.task] at ended
    cases ended
  | decided underway =>
    rw [underway.task] at ended
    cases ended
  | draining drains =>
    rw [drains.task] at ended
    cases ended
  | gathered task =>
    rw [task] at ended
    cases ended
  | finished task timeline =>
    rw [task] at ended
    cases ended
    exact timeline

/-- The second of four jobs fails at once. The join stops the others two rounds later, those behind
it first; the third one would have come to its end just then. -/
theorem runAll_timeline_of_early_failure :
    (runAll [⟨5, .ok 0⟩, ⟨0, .error "no"⟩, ⟨2, .ok 0⟩, ⟨3, .ok 0⟩]).1 = .error (.error "no") ∧
      (runAll [⟨5, .ok 0⟩, ⟨0, .error "no"⟩, ⟨2, .ok 0⟩, ⟨3, .ok 0⟩]).2.filterMap
        Entry.cancelled? = [2, 3, 0] := by
  have stopped : (stoppedBy [⟨5, .ok 0⟩, ⟨0, .error "no"⟩, ⟨2, .ok 0⟩, ⟨3, .ok 0⟩] 1).map Fin.val =
      [2, 3, 0] := by
    decide
  rcases (runAll_timeline [⟨5, .ok 0⟩, ⟨0, .error "no"⟩, ⟨2, .ok 0⟩, ⟨3, .ok 0⟩]).ends with
    ⟨values, ok, -⟩ | ⟨f, message, ⟨error, -⟩, outcome, -, order⟩
  · have mem : (.error "no" : Except Text Nat) ∈ values.map .ok := by
      rw [← ok]
      simp
    obtain ⟨value, -, eq⟩ := List.mem_map.1 mem
    cases eq
  · rw [outcome, order]
    -- Only the second job fails.
    obtain ⟨_ | _ | _ | _ | i, lt⟩ := f
    · cases error
    · cases error
      exact ⟨rfl, stopped⟩
    · cases error
    · cases error
    · have lt : i + 4 < 4 := lt
      omega

end Job

end RangeCalc.Loop
