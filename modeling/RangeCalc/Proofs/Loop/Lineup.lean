import Mathlib.Data.List.FinRange
import Mathlib.Data.Prod.Lex
import Mathlib.Logic.Function.Basic
import RangeCalc.Loop.Jobs
import RangeCalc.Proofs.Loop.Outcome

/-!
# Jobs in the queue

Jobs that are joined take their turns one after the other, and then again. Count the turns of each
job, those in which it goes on and, after its end, the one in which the join hears of it. A turn
then has a *stamp*: how many turns the job has had before, and the index of the job. The turns in
the queue stand in the order of their stamps, and a job that goes to the end of the queue has the
greatest of all. So it can be read off the stamp of the turn at the front which jobs have ended,
without regard to what has been going on between them.

* `Lineup`: the jobs in the queue, in the order of their stamps;
* `Lineup.requeue`, `Lineup.leave`: the first job has its turn;
* `Job.exists_visit_resume`: what a job does in its turn.
-/

namespace RangeCalc.Loop

/-! ## The order of the turns -/

section

variable {n : Nat}

/-- A turn with the first stamp comes before one with the second, and at most one round before. -/
def Precedes (a b : Nat × Nat) : Prop := b.1 = a.1 ∧ a.2 < b.2 ∨ b.1 = a.1 + 1 ∧ b.2 < a.2

theorem Precedes.toLex_lt {a b : Nat × Nat} (h : Precedes a b) : toLex a < toLex b := by
  rw [Prod.Lex.toLex_lt_toLex]
  unfold Precedes at h
  omega

/-- A turn that comes after another comes before the next turn of the same job. -/
theorem Precedes.next {a b : Nat × Nat} (h : Precedes a b) : Precedes b (a.1 + 1, a.2) := by
  unfold Precedes at *
  omega

/-- The job `j` has had one more turn. -/
def tick (turns : Fin n → Nat) (j : Fin n) : Fin n → Nat := Function.update turns j (turns j + 1)

@[simp]
theorem tick_self (turns : Fin n → Nat) (j : Fin n) : tick turns j j = turns j + 1 :=
  Function.update_self ..

theorem tick_of_ne {i j : Fin n} (h : i ≠ j) (turns : Fin n → Nat) : tick turns j i = turns i :=
  Function.update_of_ne h ..

/-- The jobs in the queue, after so many turns of each of them. The jobs suspend themselves for
`yields` turns; another turn later they have ended, and after the next one they leave the queue. -/
structure Lineup (yields turns : Fin n → Nat) (queue : List (Fin n)) : Prop where
  ordered : queue.Pairwise fun i j => Precedes (turns i, i) (turns j, j)
  left : ∀ j ∉ queue, turns j = yields j + 2 ∧
    ∀ i ∈ queue, toLex (yields j + 1, j.val) < toLex (turns i, i.val)

namespace Lineup

variable {yields turns : Fin n → Nat} {j : Fin n} {queue : List (Fin n)}

/-- At first all jobs are in the queue. -/
theorem start (yields : Fin n → Nat) : Lineup yields (fun _ => 0) (List.finRange n) :=
  ⟨(List.pairwise_lt_finRange n).imp fun h => .inl ⟨rfl, h⟩,
    fun j hj => absurd (List.mem_finRange j) hj⟩

theorem precedes (h : Lineup yields turns (j :: queue)) {i : Fin n} (hi : i ∈ queue) :
    Precedes (turns j, j) (turns i, i) :=
  List.rel_of_pairwise_cons h.ordered hi

/-- No job stands in the queue twice. -/
theorem nodup (h : Lineup yields turns queue) : queue.Nodup := by
  refine h.ordered.imp fun {i j} precedes => ?_
  rintro rfl
  exact lt_irrefl _ precedes.toLex_lt

theorem not_mem (h : Lineup yields turns (j :: queue)) : j ∉ queue := (List.nodup_cons.1 h.nodup).1

/-- The jobs behind the first one have had no turn since. -/
theorem tick_of_mem (h : Lineup yields turns (j :: queue)) {i : Fin n} (hi : i ∈ queue) :
    tick turns j i = turns i := by
  refine tick_of_ne ?_ turns
  rintro rfl
  exact h.not_mem hi

theorem ordered_tail (h : Lineup yields turns (j :: queue)) :
    queue.Pairwise fun i i' => Precedes (tick turns j i, i) (tick turns j i', i') := by
  refine (List.pairwise_cons.1 h.ordered).2.imp_of_mem fun {i i'} hi hi' precedes => ?_
  rwa [h.tick_of_mem hi, h.tick_of_mem hi']

/-- A job that is not in the queue is not there later either. -/
theorem left_tail (h : Lineup yields turns (j :: queue)) {i : Fin n} (ne : i ≠ j) (hi : i ∉ queue) :
    tick turns j i = yields i + 2 ∧
      ∀ i' ∈ queue, toLex (yields i + 1, i.val) < toLex (tick turns j i', i'.val) := by
  obtain ⟨gone, before⟩ := h.left i (List.not_mem_cons_of_ne_of_not_mem ne hi)
  rw [tick_of_ne ne]
  refine ⟨gone, fun i' hi' => ?_⟩
  rw [h.tick_of_mem hi']
  exact before i' (List.mem_cons_of_mem j hi')

/-- The first job goes to the end of the queue. -/
theorem requeue (h : Lineup yields turns (j :: queue)) :
    Lineup yields (tick turns j) (queue ++ [j]) := by
  refine ⟨?_, fun i hi => ?_⟩
  · refine List.pairwise_append.2
      ⟨h.ordered_tail, List.pairwise_singleton _ _, fun i hi i' hi' => ?_⟩
    rw [List.mem_singleton.1 hi', h.tick_of_mem hi, tick_self]
    exact (h.precedes hi).next
  · rw [List.mem_append, List.mem_singleton, not_or] at hi
    have not_mem := List.not_mem_cons_of_ne_of_not_mem hi.2 hi.1
    obtain ⟨gone, before⟩ := h.left_tail hi.2 hi.1
    refine ⟨gone, fun i' hi' => ?_⟩
    rcases List.mem_append.1 hi' with hi' | hi'
    · exact before i' hi'
    · -- The stamp of the first job was greater already, and grows.
      obtain rfl := List.mem_singleton.1 hi'
      have before := (h.left i not_mem).2 i' List.mem_cons_self
      rw [tick_self]
      rw [Prod.Lex.toLex_lt_toLex] at before ⊢
      omega

/-- What holds of the first job after its turn, and of the others as they are, holds of all when it
has gone to the end of the queue. -/
theorem forall_requeue (h : Lineup yields turns (j :: queue)) {P : Fin n → Nat → Prop}
    (first : P j (turns j + 1)) (others : ∀ i ∈ queue, P i (turns i)) :
    ∀ i ∈ queue ++ [j], P i (tick turns j i) := by
  intro i mem
  rcases List.mem_append.1 mem with mem | mem
  · rw [h.tick_of_mem mem]
    exact others i mem
  · rw [List.mem_singleton.1 mem, tick_self]
    exact first

/-- The first job leaves the queue, when the join has heard of its end. -/
theorem leave (h : Lineup yields turns (j :: queue)) (ended : turns j = yields j + 1) :
    Lineup yields (tick turns j) queue := by
  refine ⟨h.ordered_tail, fun i hi => ?_⟩
  by_cases eq : i = j
  · subst eq
    refine ⟨by rw [tick_self, ended], fun i' hi' => ?_⟩
    rw [h.tick_of_mem hi', ← ended]
    exact (h.precedes hi').toLex_lt
  · exact h.left_tail eq hi

/-- The first turns of the jobs come in the order of the jobs. -/
theorem ne_zero_of_lt (h : Lineup yields turns (j :: queue)) (zero : turns j = 0) {i : Fin n}
    (lt : i < j) : turns i ≠ 0 := by
  by_cases hi : i ∈ queue
  · have precedes := h.precedes hi
    unfold Precedes at precedes
    omega
  · have gone := (h.left i (List.not_mem_cons_of_ne_of_not_mem (Fin.ne_of_lt lt) hi)).1
    omega

end Lineup

end

/-! ## What a job does -/

namespace Job

variable {β : Type}

/-- The note that a job leaves at its end. -/
def ending (job : Job β) (i : Nat) : JobNote :=
  match job.result with
  | .ok _ => .done i
  | .error _ => .failed i

/-- What a job comes to if it is not stopped. -/
def outcome (job : Job β) : Outcome Text (List β) :=
  match job.result with
  | .ok value => .ok [value]
  | .error message => .error (.error message)

/-- The last step of a job. -/
def finish (job : Job β) (i : Nat) : Action JobNote Text (List β) :=
  match job.result with
  | .ok value => .note (.done i) fun _ => .ret [value]
  | .error message => .note (.failed i) fun _ => .fail message

/-- What is left of a job after some turns. -/
def rest (job : Job β) (i : Nat) : (turns : Nat) → Action JobNote Text (List β)
  | 0 => job.action i
  | turns + 1 => pause (fun _ => job.finish i) (job.yields - (turns + 1))

/-- The task of a job after some turns. -/
def part (job : Job β) (i turns : Nat) : Task JobNote Text (List β) :=
  if turns ≤ job.yields then .ready false (job.rest i turns) else .ended job.outcome

theorem part_of_le {job : Job β} {turns : Nat} (h : turns ≤ job.yields) (i : Nat) :
    job.part i turns = .ready false (job.rest i turns) :=
  if_pos h

theorem part_of_lt {job : Job β} {turns : Nat} (h : job.yields < turns) (i : Nat) :
    job.part i turns = .ended job.outcome :=
  if_neg (Nat.not_le_of_lt h)

/-- The turn of a job after some turns: it goes on, or the join hears of its end. If its end decides
the join, the join resumes in its place. -/
def turn (job : Job β) (i turns : Nat) : Turn :=
  if turns ≤ job.yields then ⟨[i], .resume⟩
  else if turns = job.yields + 1 then ⟨[], .hear false i⟩
  else ⟨[], .resume⟩

theorem turn_resume {job : Job β} {turns : Nat} (h : turns ≤ job.yields) (i : Nat) :
    job.turn i turns = ⟨[i], .resume⟩ :=
  if_pos h

theorem turn_hear {job : Job β} {turns : Nat} (h : turns = job.yields + 1) (i : Nat) :
    job.turn i turns = ⟨[], .hear false i⟩ := by
  rw [turn, if_neg (by omega), if_pos h]

theorem turn_decided {job : Job β} {turns : Nat} (h : turns = job.yields + 2) (i : Nat) :
    job.turn i turns = ⟨[], .resume⟩ := by
  rw [turn, if_neg (by omega), if_neg (by omega)]

/-- What a job notes in the turn after some turns. -/
def notes (job : Job β) (i turns : Nat) : List (Entry JobNote) :=
  (if turns = 0 then [.noted (.started i)] else []) ++
    if turns = job.yields then [.noted (job.ending i)] else []

/-- A desk where every checkpoint suspends, and the record on it. -/
structure Records (desk : Desk JobNote) (record : List (Entry JobNote)) : Prop where
  every : desk.checkpoint.every = 1
  record : desk.record.reverse = record

namespace Records

variable {desk : Desk JobNote} {record : List (Entry JobNote)}

theorem write (h : Records desk record) (entry : Entry JobNote) :
    Records (desk.write entry) (record ++ [entry]) := by
  refine ⟨h.every, ?_⟩
  rw [Desk.write, List.reverse_cons, h.record]

theorem pass (h : Records desk record) : Records desk.pass record := ⟨h.every, h.record⟩

theorem isDue_pass (h : Records desk record) : desk.pass.checkpoint.isDue = true := by
  have every : desk.pass.checkpoint.every = 1 := h.every
  rw [Checkpoint.isDue, every, Nat.mod_one]
  rfl

end Records

section

variable {desk : Desk JobNote} {record : List (Entry JobNote)}

/-- The last step of a job leaves a note and ends it. -/
theorem advance_finish (job : Job β) (i : Nat) (desk : Desk JobNote) :
    (job.finish i).advance desk = (.ended job.outcome, desk.write (.noted (job.ending i))) := by
  rw [finish, outcome, ending]
  cases job.result <;> rfl

/-- In its first turn a job notes that it has started; otherwise turns are all alike. -/
theorem advance_rest (job : Job β) (i turns : Nat) (desk : Desk JobNote) :
    (job.rest i turns).advance desk =
      (pause (fun _ => job.finish i) (job.yields - turns)).advance
        (if turns = 0 then desk.write (.noted (.started i)) else desk) := by
  cases turns with
  | zero => rfl
  | succ turns => rfl

/-- A job goes on until it suspends itself or has ended, and leaves its notes. -/
theorem exists_start_rest (job : Job β) (i : Nat) {turns : Nat} (le : turns ≤ job.yields)
    (h : Records desk record) :
    ∃ after, Records after (record ++ job.notes i turns) ∧
      Task.start false (job.rest i turns) desk =
        (job.part i (turns + 1), if turns = job.yields then [] else [⟨[], .resume⟩], after) := by
  -- The desk after the note about the start, if this is the first turn.
  obtain ⟨opened, records, advance⟩ : ∃ opened,
      Records opened (record ++ if turns = 0 then [.noted (.started i)] else []) ∧
        (job.rest i turns).advance desk =
          (pause (fun _ => job.finish i) (job.yields - turns)).advance opened := by
    refine ⟨_, ?_, job.advance_rest i turns desk⟩
    split
    · exact h.write _
    · rwa [List.append_nil]
  rw [Task.start_eq, advance, notes, ← List.append_assoc, part]
  rcases Nat.eq_or_lt_of_le le with rfl | lt
  · refine ⟨opened.write (.noted (job.ending i)), ?_, ?_⟩
    · rw [if_pos rfl]
      exact records.write _
    · rw [Nat.sub_self, pause, advance_finish, if_neg (Nat.not_succ_le_self _), if_pos rfl]
      rfl
  · refine ⟨opened.pass, ?_, ?_⟩
    · rw [if_neg (Nat.ne_of_lt lt), List.append_nil]
      exact records.pass
    · have left : job.yields - turns = job.yields - (turns + 1) + 1 := by omega
      rw [left, pause, Action.advance, if_pos records.isDue_pass,
        if_pos (Nat.succ_le_of_lt lt), if_neg (Nat.ne_of_lt lt)]
      rfl

end

/-! ## The join -/

section

variable {jobs : List (Job β)} {turns : Fin jobs.length → Nat} {j : Fin jobs.length}
  {desk : Desk JobNote} {record : List (Entry JobNote)}

/-- The tasks of the jobs after so many turns of each of them. -/
def parts (jobs : List (Job β)) (turns : Fin jobs.length → Nat) :
    Fin jobs.length → Task JobNote Text (List β) :=
  fun j => (jobs.get j).part j (turns j)

/-- The task of the join after so many turns of the jobs. -/
def joining (jobs : List (Job β)) (stage : Stage Text) (awaited : List Nat)
    (turns : Fin jobs.length → Nat) : Task JobNote Text (List β) :=
  .joined jobs.length (parts jobs turns) stage awaited fun values => .ret (List.ofFn values).flatten

theorem parts_tick (jobs : List (Job β)) (turns : Fin jobs.length → Nat) (j : Fin jobs.length) :
    parts jobs (tick turns j) =
      Task.replace (parts jobs turns) j ((jobs.get j).part j (turns j + 1)) := by
  funext i
  by_cases eq : i = j
  · subst eq
    rw [Task.replace, if_pos rfl, parts, tick_self]
  · rw [Task.replace, if_neg eq, parts, tick_of_ne eq, parts]

/-- A job that has not ended goes on in its turn. -/
theorem exists_visit_resume {stage : Stage Text} (first : stage.isDraining = false)
    (awaited : List Nat) (le : turns j ≤ (jobs.get j).yields) (h : Records desk record) :
    ∃ after, Records after (record ++ (jobs.get j).notes j (turns j)) ∧
      (joining jobs stage awaited turns).visit [j] .resume [j] desk =
        (joining jobs stage awaited (tick turns j), [(jobs.get j).turn j (turns j + 1)],
          after) := by
  obtain ⟨after, records, start⟩ := (jobs.get j).exists_start_rest j le h
  refine ⟨after, records, ?_⟩
  have before : parts jobs turns ⟨j, j.isLt⟩ = .ready false ((jobs.get j).rest j (turns j)) :=
    part_of_le le j
  rw [joining, joining, parts_tick, Task.visit, dif_pos j.isLt, before]
  simp only [Task.visit, Task.perform, Task.resume, start, Task.get_ofFn, first]
  rcases Nat.eq_or_lt_of_le le with eq | lt
  · rw [if_pos eq, part_of_lt (by omega), turn_hear (by omega)]
    rfl
  · rw [if_neg (Nat.ne_of_lt lt), part_of_le lt, turn_resume lt]
    rfl

end

end Job

end RangeCalc.Loop
