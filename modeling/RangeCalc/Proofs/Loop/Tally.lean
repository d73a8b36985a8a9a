import Mathlib.Algebra.BigOperators.Fin
import RangeCalc.Proofs.Loop.Outcome

/-!
# Counting notes

The parts of a join leave their notes in an order that the loop decides, but how many notes there
are in the end does not depend on it. This is so if no part fails: then every part comes to its end,
and what it notes can be counted in advance. `Action.Tallies` says that an action, left alone, comes
to a value of some kind and leaves notes of some total weight on its way, whatever the values of its
parts.

* `Task.Tallies`: the same for a task, with the weight of the notes that it has still to leave. What
  is on the desk and what is to come add up to the same at every turn (`Task.tallies_visit`).
* `run_tallies`: the action comes to such a value, and its notes have that weight.
-/

namespace RangeCalc.Loop

variable {ν ε α : Type}

/-- The weight of an entry of the record: that of the note, if it is one. -/
def Entry.weight (weight : ν → Nat) : Entry ν → Nat
  | .noted message => weight message
  | .cancelled _ => 0

/-- The weight of all notes on a desk. -/
def Desk.tally (weight : ν → Nat) (desk : Desk ν) : Nat :=
  (desk.record.map (Entry.weight weight)).sum

variable {weight : ν → Nat}

theorem Desk.tally_write (desk : Desk ν) (message : ν) :
    (desk.write (.noted message)).tally weight = weight message + desk.tally weight :=
  List.sum_cons

theorem Desk.tally_pass (desk : Desk ν) : desk.pass.tally weight = desk.tally weight := rfl

/-! ## Actions -/

/-- Left alone, the action comes to a value with `V`, and the notes on its way have weight `m`. -/
inductive Action.Tallies (weight : ν → Nat) : Nat → (α → Prop) → Action ν ε α → Prop
  | ret {V : α → Prop} {value : α} : V value → Tallies weight 0 V (.ret value)
  | note {m : Nat} {V : α → Prop} {message : ν} {next : Unit → Action ν ε α} :
      Tallies weight m V (next ()) → Tallies weight (weight message + m) V (.note message next)
  | poll {m : Nat} {V : α → Prop} {next : Bool → Action ν ε α} :
      Tallies weight m V (next false) → Tallies weight m V (.poll next)
  | tick {m : Nat} {V : α → Prop} {next : Unit → Action ν ε α} :
      Tallies weight m V (next ()) → Tallies weight m V (.tick next)
  | join {m n : Nat} {V : α → Prop} {part : Fin n → Action ν ε α}
      {next : (Fin n → α) → Action ν ε α} (c : Fin n → Nat) (Q : Fin n → α → Prop) :
      (∀ i, Tallies weight (c i) (Q i) (part i)) →
      (∀ values, (∀ i, Q i (values i)) → Tallies weight m V (next values)) →
      Tallies weight (∑ i, c i + m) V (.join n part next)

/-- What is still to come from the point where an action has to wait. -/
def Halt.Tallies (weight : ν → Nat) (m : Nat) (V : α → Prop) : Halt ν ε α → Prop
  | .ended outcome => m = 0 ∧ ∃ value, V value ∧ outcome = .ok value
  | .paused rest => rest.Tallies weight m V
  | .forked n part next => (Action.join n part next).Tallies weight m V

variable {V : α → Prop} {m : Nat}

/-- Carrying an action on turns weight that is to come into weight on the desk. -/
theorem Action.tallies_advance {action : Action ν ε α} (h : action.Tallies weight m V)
    {desk : Desk ν} (asked : desk.checkpoint.cancelled = false) :
    ∃ m', (action.advance desk).1.Tallies weight m' V ∧
      (action.advance desk).2.tally weight + m' = desk.tally weight + m := by
  induction h generalizing desk with
  | ret h => exact ⟨0, ⟨rfl, _, h, rfl⟩, rfl⟩
  | @note m V message next _ ih =>
    have asked' : (desk.write (.noted message)).checkpoint.cancelled = false := asked
    obtain ⟨m', halt, sum⟩ := ih asked'
    rw [Desk.tally_write] at sum
    exact ⟨m', halt, by rw [advance, sum]; omega⟩
  | poll _ ih =>
    rw [advance, asked]
    exact ih asked
  | tick h ih =>
    rw [advance]
    split
    · exact ⟨_, h, by rw [Desk.tally_pass]⟩
    · have asked' : desk.pass.checkpoint.cancelled = false := asked
      exact ih asked'
  | @join m n V part next c Q parts go _ ih =>
    rcases n with _ | n
    · rw [Fin.sum_univ_zero, Nat.zero_add, advance]
      exact ih _ (fun i => i.elim0) asked
    · exact ⟨_, .join c Q parts go, rfl⟩

namespace Task

/-! ## Tasks -/

/-- A task that has not been asked to stop, will come to a value with `V`, and has still to leave
notes of weight `m`. -/
inductive Tallies (weight : ν → Nat) : Nat → (α → Prop) → Task ν ε α → Prop
  | ready {m : Nat} {V : α → Prop} {action : Action ν ε α} :
      action.Tallies weight m V → Tallies weight m V (.ready false action)
  | ended {V : α → Prop} {value : α} : V value → Tallies weight 0 V (.ended (.ok value))
  | gathering {m n : Nat} {V : α → Prop} {parts : Fin n → Task ν ε α} {awaited : List Nat}
      {next : (Fin n → α) → Action ν ε α} (c : Fin n → Nat) (Q : Fin n → α → Prop) :
      (∀ i, Tallies weight (c i) (Q i) (parts i)) →
      (∀ values, (∀ i, Q i (values i)) → (next values).Tallies weight m V) →
      (∀ i : Fin n, i.val ∉ awaited → ∃ value, parts i = .ended (.ok value)) →
      Tallies weight (∑ i, c i + m) V (.joined n parts (.gathering false) awaited next)
  | settled {m n : Nat} {V : α → Prop} {parts : Fin n → Task ν ε α} {awaited : List Nat}
      {next : (Fin n → α) → Action ν ε α} (values : Fin n → α) :
      (∀ i, parts i = .ended (.ok (values i))) → (next values).Tallies weight m V →
      Tallies weight m V (.joined n parts (.settled none) awaited next)

variable {t : Task ν ε α} {desk : Desk ν}

/-- A task that is over has no notes to leave. -/
theorem Tallies.of_ended {o : Outcome ε α} (h : Tallies weight m V (.ended o : Task ν ε α)) :
    m = 0 ∧ ∃ value, V value ∧ o = .ok value := by
  rcases h with _ | h
  exact ⟨rfl, _, h, rfl⟩

/-- A task that starts an action. -/
theorem tallies_start {action : Action ν ε α} (h : action.Tallies weight m V)
    (asked : desk.checkpoint.cancelled = false) :
    ∃ m', (start false action desk).1.Tallies weight m' V ∧
      (start false action desk).2.2.tally weight + m' = desk.tally weight + m := by
  obtain ⟨m', halt, sum⟩ := Action.tallies_advance h asked
  rw [start_eq]
  refine ⟨m', ?_, sum⟩
  generalize (action.advance desk).1 = point at halt
  rcases point with o | rest | ⟨n, part, next⟩
  · obtain ⟨rfl, value, hv, rfl⟩ := halt
    exact .ended hv
  · exact .ready halt
  · obtain ⟨⟩ | ⟨⟩ | ⟨⟩ | ⟨⟩ | ⟨c, Q, parts, go⟩ := halt
    refine .gathering c Q (fun i => .ready (parts i)) go fun i hi => ?_
    exact absurd (List.mem_range.2 i.isLt) hi

/-- A task that resumes. -/
theorem tallies_resume (path : List Nat) (h : t.Tallies weight m V)
    (asked : desk.checkpoint.cancelled = false) :
    ∃ m', (t.resume path desk).1.Tallies weight m' V ∧
      (t.resume path desk).2.2.tally weight + m' = desk.tally weight + m := by
  rcases h with h | h | ⟨c, Q, parts, go, heard⟩ | ⟨values, ended, h⟩
  · exact tallies_start h asked
  · exact ⟨0, .ended h, rfl⟩
  · exact ⟨_, .gathering c Q parts go heard, rfl⟩
  · rw [resume_settled ended]
    exact tallies_start h asked

/-- A task that hears of the end of a part. Once all parts have been heard, none of them has notes
to leave. -/
theorem tallies_hearFirst (i : Nat) (h : t.Tallies weight m V) :
    (t.hearFirst i).1.Tallies weight m V := by
  rcases h with h | h | ⟨c, Q, leads, go, heard⟩ | ⟨values, ended, h⟩
  · exact .ready h
  · exact .ended h
  · rename_i m n parts awaited next
    have same : Tallies weight (∑ i, c i + m) V (.joined n parts (.gathering false) awaited next) :=
      .gathering c Q leads go heard
    rw [hearFirst]
    by_cases hi : i < n
    · rw [dif_pos hi]
      have leads_i := leads ⟨i, hi⟩
      rcases outcome : (parts ⟨i, hi⟩).outcome? with _ | o
      · exact same
      · have ended_i := eq_ended_of_outcome? outcome
        rw [ended_i] at leads_i
        obtain ⟨-, value, -, rfl⟩ := leads_i.of_ended
        have heard' := ended_of_not_mem_erase hi ended_i heard
        simp only
        split
        · exact same
        · split
          · rename_i _ none_left
            have ended : ∀ j, ∃ value, parts j = .ended (.ok value) :=
              fun j => heard' j (none_left ▸ List.not_mem_nil)
            choose values values_eq using ended
            have left : ∀ j, c j = 0 ∧ Q j (values j) := by
              intro j
              have leads_j := leads j
              rw [values_eq j] at leads_j
              obtain ⟨none, value, hv, ⟨⟩⟩ := leads_j.of_ended
              exact ⟨none, hv⟩
            rw [Finset.sum_eq_zero fun j _ => (left j).1, Nat.zero_add]
            exact .settled values values_eq (go values fun j => (left j).2)
          · exact .gathering c Q leads go heard'
    · rw [dif_neg hi]
      exact same
  · exact .settled values ended h

theorem tallies_hearAgain (i : Nat) (h : t.Tallies weight m V) :
    (t.hearAgain i).1.Tallies weight m V := by
  rcases h with h | h | ⟨c, Q, leads, go, heard⟩ | ⟨values, ended, h⟩
  · exact .ready h
  · exact .ended h
  · exact .gathering c Q leads go heard
  · exact .settled values ended h

/-- The sum of a family in which one number is replaced. -/
theorem sum_update {n : Nat} (c : Fin n → Nat) (i : Fin n) (k : Nat) :
    ∑ j, Function.update c i k j + c i = ∑ j, c j + k := by
  rw [Finset.sum_update_of_mem (Finset.mem_univ i),
    ← Finset.sum_sdiff (Finset.subset_univ {i}) (f := c), Finset.sum_singleton]
  omega

/-- A turn turns weight that is to come into weight on the desk, be it a turn of the task itself or
of one of its parts. -/
theorem tallies_visit (whole : List Nat) (act : Act) (path : List Nat) (h : t.Tallies weight m V)
    (asked : desk.checkpoint.cancelled = false) :
    ∃ m', (t.visit whole act path desk).1.Tallies weight m' V ∧
      (t.visit whole act path desk).2.2.tally weight + m' = desk.tally weight + m := by
  induction path generalizing t m V with
  | nil =>
    rcases act with _ | ⟨again, i⟩
    · exact tallies_resume whole h asked
    · rcases again with _ | _
      · exact ⟨m, tallies_hearFirst i h, rfl⟩
      · exact ⟨m, tallies_hearAgain i h, rfl⟩
  | cons i path ih =>
    rcases h with h | h | ⟨c, Q, leads, go, heard⟩ | ⟨values, ended, h⟩
    · exact ⟨m, .ready h, rfl⟩
    · exact ⟨0, .ended h, rfl⟩
    · rename_i m n parts awaited next
      rw [visit]
      split
      · -- Only the part that has its turn leaves notes.
        rename_i hi
        obtain ⟨k, part, sum⟩ := ih (leads ⟨i, hi⟩)
        have total := sum_update c ⟨i, hi⟩ k
        have sum' : ((parts ⟨i, hi⟩).visit whole act path desk).2.2.tally weight +
            (∑ j, Function.update c ⟨i, hi⟩ k j + m) = desk.tally weight + (∑ j, c j + m) := by
          omega
        refine ⟨_, ?_, sum'⟩
        simp only [get_ofFn]
        refine .gathering _ Q (fun j => ?_) go fun j hj => ?_
        · by_cases eq : j = ⟨i, hi⟩
          · subst eq
            rw [replace, if_pos rfl, Function.update_self]
            exact part
          · rw [replace, if_neg eq, Function.update_of_ne eq]
            exact leads j
        · obtain ⟨value, hv⟩ := heard j hj
          exact ⟨value, replace_visit_of_ended whole act path desk _ hv⟩
      · exact ⟨_, .gathering c Q leads go heard, rfl⟩
    · rw [visit]
      split
      · rename_i n parts awaited next hi
        have still : ((parts ⟨i, hi⟩).visit whole act path desk).2.2 = desk := by
          rw [ended ⟨i, hi⟩, visit_ended]
        refine ⟨m, ?_, congrArg (·.tally weight + m) still⟩
        simp only [get_ofFn]
        exact .settled values (fun j => replace_visit_of_ended whole act path desk _ (ended j)) h
      · exact ⟨m, .settled values ended h, rfl⟩

end Task

/-! ## The loop -/

/-- Left alone, the action comes to a value as said, and the notes that it leaves have the weight
that has been counted. -/
theorem run_tallies {action : Action ν ε α} (h : action.Tallies weight m V) {desk : Desk ν}
    (asked : desk.checkpoint.cancelled = false) :
    (∃ value, V value ∧ (run false action desk).outcome = .ok value) ∧
      (run false action desk).desk.tally weight = desk.tally weight + m := by
  have last := State.settle_induction (P := fun s => (∃ m', s.task.Tallies weight m' V ∧
      s.desk.tally weight + m' = desk.tally weight + m) ∧ s.desk.checkpoint.cancelled = false)
    (fun s turn rest h _ _ => ?_) (begin false action desk) ⟨?_, ?_⟩
  · obtain ⟨⟨m', task, sum⟩, -⟩ := last
    rw [settle_begin] at task
    obtain ⟨rfl, value, hv, eq⟩ := task.of_ended
    exact ⟨⟨value, hv, eq⟩, sum⟩
  · obtain ⟨⟨m', task, sum⟩, asked⟩ := h
    refine ⟨?_, (Task.cancelled_visit turn.path turn.act turn.path s.task s.desk).trans asked⟩
    rw [← sum]
    exact Task.tallies_visit turn.path turn.act turn.path task asked
  · exact Task.tallies_start h asked
  · exact (action.cancelled_advance desk).trans asked

end RangeCalc.Loop
