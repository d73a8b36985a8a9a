import Mathlib.Data.List.Sort
import RangeCalc.Proofs.Loop.Lineup

/-!
# The record of joined jobs

A join of jobs is recorded by what the jobs note about themselves and by the ends of those that are
stopped. From how many turns each job has had it can be told what the record says about it
(`Job.Logged`). `Job.Timeline` is what the record says in the end: every job starts and ends once,
and if a job fails, those that would come to their end more than two rounds after it are stopped,
the ones behind it first.

* `Job.Logged.tick`: what a turn adds to the record;
* `Job.Timeline`: the outcome and the record of a join;
* `Job.timeline_of_ok`, `Job.timeline_of_error`: the record when all jobs have been heard of, and
  when a failure has been.
-/

namespace RangeCalc.Loop

/-! ## Entries -/

/-- The job that an entry is about. -/
def Entry.job? : Entry JobNote → Option Nat
  | .noted (.started i) | .noted (.done i) | .noted (.failed i) | .cancelled [i] => some i
  | .cancelled _ => none

/-- The job that has started. -/
def Entry.started? : Entry JobNote → Option Nat
  | .noted (.started i) => some i
  | _ => none

/-- The job that has been stopped. -/
def Entry.cancelled? : Entry JobNote → Option Nat
  | .cancelled [i] => some i
  | _ => none

namespace Job

variable {β : Type}

/-- What the record says about a job. -/
def entriesOf (i : Nat) (record : List (Entry JobNote)) : List (Entry JobNote) :=
  record.filter fun entry => entry.job? = some i

@[simp]
theorem entriesOf_append (i : Nat) (record record' : List (Entry JobNote)) :
    entriesOf i (record ++ record') = entriesOf i record ++ entriesOf i record' :=
  List.filter_append ..

theorem job?_ending (job : Job β) (i : Nat) : (Entry.noted (job.ending i)).job? = some i := by
  rw [ending]
  cases job.result <;> rfl

theorem started?_ending (job : Job β) (i : Nat) : (Entry.noted (job.ending i)).started? = none := by
  rw [ending]
  cases job.result <;> rfl

theorem job?_of_mem_notes {job : Job β} {i turns : Nat} {entry : Entry JobNote}
    (h : entry ∈ job.notes i turns) : entry.job? = some i := by
  rw [notes, List.mem_append] at h
  rcases h with h | h
  · split at h
    · rw [List.mem_singleton.1 h]
      rfl
    · cases h
  · split at h
    · rw [List.mem_singleton.1 h]
      exact job?_ending job i
    · cases h

theorem notes_of_lt {job : Job β} {turns : Nat} (h : job.yields < turns) (i : Nat) :
    job.notes i turns = [] := by
  rw [notes, if_neg (by omega), if_neg (by omega)]
  rfl

theorem started?_notes (job : Job β) (i turns : Nat) :
    (job.notes i turns).filterMap Entry.started? = if turns = 0 then [i] else [] := by
  have none := started?_ending job i
  rw [notes, List.filterMap_append]
  split <;> split <;> simp [Entry.started?] <;> exact none

theorem cancelled?_notes (job : Job β) (i turns : Nat) :
    (job.notes i turns).filterMap Entry.cancelled? = [] := by
  rw [notes, List.filterMap_append]
  split <;> split <;> rfl

/-! ## The record after some turns -/

/-- What a job has noted after some turns. -/
def history (job : Job β) (i turns : Nat) : List (Entry JobNote) :=
  (if turns = 0 then [] else [.noted (.started i)]) ++
    if job.yields < turns then [.noted (job.ending i)] else []

theorem history_succ (job : Job β) (i turns : Nat) :
    job.history i (turns + 1) = job.history i turns ++ job.notes i turns := by
  rw [history, history, notes, if_neg (Nat.succ_ne_zero turns)]
  by_cases first : turns = 0
  · have last : job.yields < turns + 1 ↔ turns = job.yields := by omega
    rw [if_pos first, if_pos first, if_neg (by omega : ¬job.yields < turns)]
    simp only [last, List.nil_append]
  · rw [if_neg first, if_neg first, List.nil_append, List.append_assoc]
    by_cases last : turns = job.yields
    · rw [if_pos last, if_pos (by omega), if_neg (by omega : ¬job.yields < turns), List.nil_append]
    · have later : job.yields < turns + 1 ↔ job.yields < turns := by omega
      simp only [later, last, if_false, List.append_nil]

/-- The record after so many turns of each job, none of which has been stopped. -/
structure Logged (jobs : List (Job β)) (turns : Fin jobs.length → Nat)
    (record : List (Entry JobNote)) : Prop where
  job : ∀ entry ∈ record, ∃ j : Fin jobs.length, entry.job? = some j.val
  history : ∀ j : Fin jobs.length, entriesOf j record = (jobs.get j).history j (turns j)
  /-- The jobs have started in order, up to some job. -/
  starts : ∃ m ≤ jobs.length, record.filterMap Entry.started? = List.range m ∧
    ∀ j : Fin jobs.length, turns j = 0 ↔ m ≤ j.val
  cancels : record.filterMap Entry.cancelled? = []

namespace Logged

variable {jobs : List (Job β)} {turns : Fin jobs.length → Nat} {record : List (Entry JobNote)}

theorem start (jobs : List (Job β)) : Logged jobs (fun _ => 0) [] :=
  ⟨nofun, fun _ => rfl, ⟨0, Nat.zero_le _, rfl, fun _ => iff_of_true rfl (Nat.zero_le _)⟩, rfl⟩

/-- A job has a turn, its first one not before the jobs in front of it have had theirs. -/
theorem tick (h : Logged jobs turns record) {j : Fin jobs.length}
    (first : turns j = 0 → ∀ i < j, turns i ≠ 0) :
    Logged jobs (Loop.tick turns j) (record ++ (jobs.get j).notes j (turns j)) := by
  refine ⟨?_, fun i => ?_, ?_, ?_⟩
  · rw [List.forall_mem_append]
    exact ⟨h.job, fun entry mem => ⟨j, job?_of_mem_notes mem⟩⟩
  · rw [entriesOf_append, h.history]
    by_cases eq : i = j
    · subst eq
      rw [tick_self, history_succ, entriesOf, List.filter_eq_self.2]
      intro entry mem
      simpa using job?_of_mem_notes mem
    · -- The notes of a job are about no other one.
      rw [tick_of_ne eq, entriesOf, List.filter_eq_nil_iff.2, List.append_nil]
      intro entry mem
      simpa [job?_of_mem_notes mem, Fin.val_inj] using Ne.symm eq
  · obtain ⟨m, le, starts, iff⟩ := h.starts
    rw [List.filterMap_append, starts, started?_notes]
    by_cases zero : turns j = 0
    · -- The job is the first that has not started.
      have eq : m = j.val := by
        refine Nat.le_antisymm ((iff j).1 zero) (Nat.le_of_not_lt fun lt => ?_)
        have lt_length := Nat.lt_trans lt j.isLt
        exact first zero ⟨m, lt_length⟩ lt ((iff ⟨m, lt_length⟩).2 (Nat.le_refl _))
      refine ⟨m + 1, by omega, ?_, fun i => ?_⟩
      · rw [if_pos zero, List.range_succ, eq]
      · by_cases same : i = j
        · subst same
          rw [tick_self]
          omega
        · rw [tick_of_ne same, iff i]
          have ne : i.val ≠ j.val := Fin.val_ne_of_ne same
          omega
    · refine ⟨m, le, ?_, fun i => ?_⟩
      · rw [if_neg zero, List.append_nil]
      · by_cases same : i = j
        · subst same
          rw [tick_self]
          exact iff_of_false (Nat.succ_ne_zero _) (mt (iff i).2 zero)
        · rw [tick_of_ne same, iff i]
  · rw [List.filterMap_append, h.cancels, cancelled?_notes]
    rfl

/-- Once every job has had a turn, all of them have started. -/
theorem starts_of_ne_zero (h : Logged jobs turns record) (ne : ∀ j, turns j ≠ 0) :
    record.filterMap Entry.started? = List.range jobs.length := by
  obtain ⟨m, le, starts, iff⟩ := h.starts
  rcases Nat.eq_or_lt_of_le le with rfl | lt
  · exact starts
  · exact absurd ((iff ⟨m, lt⟩).2 (Nat.le_refl _)) (ne _)

end Logged

/-! ## The record in the end -/

/-- When a job comes to its end: after so many turns, and in the order of the jobs. -/
def stamp (jobs : List (Job β)) (j : Fin jobs.length) : Nat ×ₗ Nat :=
  toLex ((jobs.get j).yields, j.val)

/-- The job that fails first. -/
def FirstFailure (jobs : List (Job β)) (f : Fin jobs.length) (message : Text) : Prop :=
  (jobs.get f).result = .error message ∧
    ∀ j message', (jobs.get j).result = .error message' → stamp jobs f ≤ stamp jobs j

/-- A job comes to its own end although the job `f` has failed: not more than two rounds later. In
the first of them the join hears of the failure, in the second it stops the other jobs. -/
def Finishes (jobs : List (Job β)) (f j : Fin jobs.length) : Prop :=
  stamp jobs j ≤ toLex ((jobs.get f).yields + 2, f.val)

instance (jobs : List (Job β)) (f j : Fin jobs.length) : Decidable (Finishes jobs f j) :=
  inferInstanceAs (Decidable (_ ≤ _))

/-- The jobs that are stopped when the job `f` has failed: those behind it, and then those in front
of it. -/
def stoppedBy (jobs : List (Job β)) (f : Fin jobs.length) : List (Fin jobs.length) :=
  ((List.finRange jobs.length).filter fun j => f < j ∧ ¬Finishes jobs f j) ++
    (List.finRange jobs.length).filter fun j => j < f ∧ ¬Finishes jobs f j

/-- How a join of jobs ends, and its record. -/
structure Timeline (jobs : List (Job β)) (outcome : Outcome Text (List β))
    (record : List (Entry JobNote)) : Prop where
  /-- All jobs start, each once and in order. -/
  starts : record.filterMap Entry.started? = List.range jobs.length
  /-- Every entry is about a job. -/
  job : ∀ entry ∈ record, ∃ j : Fin jobs.length, entry.job? = some j.val
  /-- If no job fails, each comes to its end, and the join returns their values in order. Otherwise
  the join fails as the first of them; each job comes to its end or is stopped. -/
  ends :
    (∃ values, jobs.map (·.result) = values.map .ok ∧ outcome = .ok values ∧
      ∀ j : Fin jobs.length, entriesOf j record = [.noted (.started j), .noted (.done j)]) ∨
    ∃ f message, FirstFailure jobs f message ∧ outcome = .error (.error message) ∧
      (∀ j : Fin jobs.length, entriesOf j record = [.noted (.started j),
        if Finishes jobs f j then .noted ((jobs.get j).ending j) else .cancelled [j]]) ∧
      record.filterMap Entry.cancelled? = (stoppedBy jobs f).map Fin.val

section

variable {jobs : List (Job β)} {turns : Fin jobs.length → Nat} {record : List (Entry JobNote)}

/-- A job that has come to its own end has noted its start and its end. -/
theorem history_of_lt {job : Job β} {i turns : Nat} (h : job.yields < turns) :
    job.history i turns = [.noted (.started i), .noted (job.ending i)] := by
  rw [history, if_neg (by omega), if_pos h]
  rfl

/-- A job that has had a turn and has not ended has noted its start. -/
theorem history_of_le {job : Job β} {i turns : Nat} (ne : turns ≠ 0) (h : turns ≤ job.yields) :
    job.history i turns = [.noted (.started i)] := by
  rw [history, if_neg ne, if_neg (Nat.not_lt_of_le h)]
  rfl

/-- All jobs have ended with values. -/
theorem timeline_of_ok {values : Fin jobs.length → β}
    (ok : ∀ j, (jobs.get j).result = .ok (values j)) (ended : ∀ j, (jobs.get j).yields < turns j)
    (logged : Logged jobs turns record) : Timeline jobs (.ok (List.ofFn values)) record := by
  refine ⟨logged.starts_of_ne_zero fun j => Nat.ne_zero_of_lt (ended j), logged.job,
    .inl ⟨List.ofFn values, ?_, rfl, fun j => ?_⟩⟩
  · calc jobs.map (·.result)
      _ = (List.ofFn jobs.get).map (·.result) := by rw [List.ofFn_get]
      _ = List.ofFn fun j => (jobs.get j).result := List.map_ofFn ..
      _ = List.ofFn fun j => .ok (values j) := congrArg List.ofFn (funext ok)
      _ = (List.ofFn values).map .ok := (List.map_ofFn ..).symm
  · rw [logged.history, history_of_lt (ended j), ending, ok]

/-! ### After a failure -/

variable {f : Fin jobs.length} {queue : List (Fin jobs.length)}

theorem mem_stoppedBy {j : Fin jobs.length} : j ∈ stoppedBy jobs f ↔ ¬Finishes jobs f j := by
  have finishes : Finishes jobs f f := by
    rw [Finishes, stamp, Prod.Lex.toLex_le_toLex]
    exact .inl (Nat.lt_add_of_pos_right Nat.two_pos)
  simp only [stoppedBy, List.mem_append, List.mem_filter, List.mem_finRange, true_and,
    decide_eq_true_eq, ← or_and_right, and_iff_right_iff_imp]
  intro late
  refine lt_or_gt_of_ne ?_
  rintro rfl
  exact late finishes

theorem nodup_stoppedBy : (stoppedBy jobs f).Nodup := by
  refine List.nodup_append.2
    ⟨(List.nodup_finRange _).filter _, (List.nodup_finRange _).filter _, ?_⟩
  rintro i hi _ hj rfl
  have above := (of_decide_eq_true (List.mem_filter.1 hi).2).1
  exact lt_asymm above (of_decide_eq_true (List.mem_filter.1 hj).2).1

/-- The record says of a stopped job that it has been stopped, once. -/
theorem entriesOf_cancelled {stopped : List (Fin jobs.length)} (nodup : stopped.Nodup)
    (j : Fin jobs.length) :
    entriesOf j (stopped.map fun i => .cancelled [i.val]) =
      if j ∈ stopped then [.cancelled [j.val]] else [] := by
  induction stopped with
  | nil => rfl
  | cons i stopped ih =>
    obtain ⟨not_mem, nodup⟩ := List.nodup_cons.1 nodup
    have ih := ih nodup
    rw [entriesOf] at ih ⊢
    by_cases eq : i = j
    · subst eq
      rw [List.map_cons, List.filter_cons_of_pos (by simp [Entry.job?]), ih, if_neg not_mem,
        if_pos List.mem_cons_self]
    · have other : ¬(Entry.cancelled [i.val]).job? = some j.val := by
        simpa [Entry.job?, Fin.val_inj] using eq
      rw [List.map_cons, List.filter_cons_of_neg (by simpa using other), ih]
      simp [List.mem_cons, Ne.symm eq]

variable (lineup : Lineup (fun j => (jobs.get j).yields) turns (f :: queue))
  (decided : turns f = (jobs.get f).yields + 2)

include lineup decided

/-- When the join resumes after a failure, the other jobs in the queue have had two turns more than
it took to fail, if they stand behind the job that has failed, and three if they stand in front of
it. -/
theorem turns_of_mem_queue {j : Fin jobs.length} (mem : j ∈ queue) :
    turns j = (jobs.get f).yields + 2 ∧ f < j ∨ turns j = (jobs.get f).yields + 3 ∧ j < f := by
  have precedes := lineup.precedes mem
  rw [decided] at precedes
  exact precedes

/-- A job that is not in the queue any more has ended. -/
theorem lt_of_not_mem_queue {j : Fin jobs.length} (not_mem : j ∉ queue) :
    turns j = (jobs.get j).yields + 2 ∧ (jobs.get j).yields ≤ (jobs.get f).yields + 1 := by
  by_cases eq : j = f
  · subst eq
    exact ⟨decided, by omega⟩
  · obtain ⟨gone, before⟩ := lineup.left j (List.not_mem_cons_of_ne_of_not_mem eq not_mem)
    have before := before f List.mem_cons_self
    rw [decided, Prod.Lex.toLex_lt_toLex] at before
    exact ⟨gone, by omega⟩

/-- When the join resumes after a failure, the jobs that have not ended are those that are too
late. -/
theorem mem_queue_and_le_iff (j : Fin jobs.length) :
    (j ∈ queue ∧ turns j ≤ (jobs.get j).yields) ↔ ¬Finishes jobs f j := by
  rw [Finishes, stamp, not_le, Prod.Lex.toLex_lt_toLex]
  by_cases mem : j ∈ queue
  · have place := turns_of_mem_queue lineup decided mem
    rw [and_iff_right mem]
    simp only [Fin.lt_def] at place ⊢
    omega
  · have before := (lt_of_not_mem_queue lineup decided mem).2
    refine iff_of_false (fun h => mem h.1) ?_
    simp only
    omega

/-- The jobs that have not ended stand in the queue in the order in which they are to be stopped. -/
theorem filter_queue_eq_stoppedBy :
    (queue.filter fun j => turns j ≤ (jobs.get j).yields) = stoppedBy jobs f := by
  -- Both lists are in the order of the stamps, and have the same members.
  have same : ∀ j, j ∈ (queue.filter fun j => turns j ≤ (jobs.get j).yields) ↔
      j ∈ stoppedBy jobs f := by
    intro j
    rw [mem_stoppedBy, ← mem_queue_and_le_iff lineup decided j, List.mem_filter, decide_eq_true_eq]
  have ordered : (queue.filter fun j => turns j ≤ (jobs.get j).yields).Pairwise
      fun i j => toLex (turns i, i.val) < toLex (turns j, j.val) :=
    ((List.pairwise_cons.1 lineup.ordered).2.imp Precedes.toLex_lt).filter _
  have ordered' : (stoppedBy jobs f).Pairwise
      fun i j => toLex (turns i, i.val) < toLex (turns j, j.val) := by
    have place {j : Fin jobs.length} (late : ¬Finishes jobs f j) :=
      turns_of_mem_queue lineup decided ((mem_queue_and_le_iff lineup decided j).2 late).1
    have above : ∀ j ∈ (List.finRange jobs.length).filter fun j => f < j ∧ ¬Finishes jobs f j,
        turns j = (jobs.get f).yields + 2 := by
      intro j mem
      have late := of_decide_eq_true (List.mem_filter.1 mem).2
      have place := place late.2
      omega
    have below : ∀ j ∈ (List.finRange jobs.length).filter fun j => j < f ∧ ¬Finishes jobs f j,
        turns j = (jobs.get f).yields + 3 := by
      intro j mem
      have late := of_decide_eq_true (List.mem_filter.1 mem).2
      have place := place late.2
      omega
    simp only [Prod.Lex.toLex_lt_toLex]
    refine List.pairwise_append.2 ⟨?_, ?_, fun i hi j hj => ?_⟩
    · refine ((List.pairwise_lt_finRange _).filter _).imp_of_mem fun {i j} hi hj lt => ?_
      exact .inr ⟨(above i hi).trans (above j hj).symm, lt⟩
    · refine ((List.pairwise_lt_finRange _).filter _).imp_of_mem fun {i j} hi hj lt => ?_
      exact .inr ⟨(below i hi).trans (below j hj).symm, lt⟩
    · rw [above i hi, below j hj]
      exact .inl (Nat.lt_succ_self _)
  have nodup := (List.nodup_cons.1 lineup.nodup).2.filter fun j => turns j ≤ (jobs.get j).yields
  exact ((List.perm_ext_iff_of_nodup nodup nodup_stoppedBy).2 same).eq_of_pairwise
    (fun i j _ _ lt lt' => absurd lt (lt_asymm lt')) ordered ordered'

/-- A job has failed, and the join, which has heard of it, stops the others. -/
theorem timeline_of_error {message : Text} (failure : FirstFailure jobs f message)
    (logged : Logged jobs turns record) :
    Timeline jobs (.error (.error message))
      (record ++ (stoppedBy jobs f).map fun j => .cancelled [j.val]) := by
  have started : ∀ j, turns j ≠ 0 := by
    intro j
    by_cases mem : j ∈ queue
    · have place := turns_of_mem_queue lineup decided mem
      omega
    · have gone := (lt_of_not_mem_queue lineup decided mem).1
      omega
  refine ⟨?_, ?_, .inr ⟨f, message, failure, rfl, fun j => ?_, ?_⟩⟩
  · have none : ((stoppedBy jobs f).map fun j => Entry.cancelled [j.val]).filterMap
        Entry.started? = [] := by
      rw [List.filterMap_map, List.filterMap_eq_nil_iff]
      exact fun _ _ => rfl
    rw [List.filterMap_append, logged.starts_of_ne_zero started, none, List.append_nil]
  · refine List.forall_mem_append.2 ⟨logged.job, fun entry mem => ?_⟩
    obtain ⟨j, -, rfl⟩ := List.mem_map.1 mem
    exact ⟨j, rfl⟩
  · have live := mem_queue_and_le_iff lineup decided j
    rw [entriesOf_append, logged.history, entriesOf_cancelled nodup_stoppedBy]
    by_cases finishes : Finishes jobs f j
    · have ended : (jobs.get j).yields < turns j := by
        by_cases mem : j ∈ queue
        · exact Nat.lt_of_not_le fun le => live.1 ⟨mem, le⟩ finishes
        · have gone := (lt_of_not_mem_queue lineup decided mem).1
          omega
      rw [history_of_lt ended, if_neg fun mem => mem_stoppedBy.1 mem finishes, if_pos finishes]
      rfl
    · rw [history_of_le (started j) (live.2 finishes).2, if_pos (mem_stoppedBy.2 finishes),
        if_neg finishes]
      rfl
  · rw [List.filterMap_append, logged.cancels, List.filterMap_map]
    exact congrFun List.filterMap_eq_map _

end

end Job

end RangeCalc.Loop
