import Mathlib.Tactic.Choose
import RangeCalc.Proofs.Loop.Progress

/-!
# What an action can come to

The loop decides in which order the parts of an action take turns, and which of several failing
parts is heard first. It does not decide more than that. `Action.Yields` says, without tasks, turns
or checkpoints, what an action can come to: a join goes on with the values of all its parts, or
fails as one of them does.

* `Task.LeadsTo`: a task that nobody has asked to stop is on its way to one of the outcomes of its
  action. Every turn keeps this (`Task.leadsTo_visit`), whoever takes it.
* `run_yields`: an action that is carried out comes to an outcome that it yields, since it comes to
  some outcome (`settle_begin`).
-/

namespace RangeCalc.Loop

variable {ν ε α : Type}

/-! ## Outcomes -/

/-- What an action can come to, `asked` being what it finds where it looks whether the run has been
asked to stop. -/
inductive Action.Yields (asked : Bool) : Action ν ε α → Outcome ε α → Prop
  | ret (value : α) : Yields asked (.ret value) (.ok value)
  | fail (error : ε) : Yields asked (.fail error) (.error (.error error))
  | note {message : ν} {next : Unit → Action ν ε α} {o : Outcome ε α} :
      Yields asked (next ()) o → Yields asked (.note message next) o
  | poll {next : Bool → Action ν ε α} {o : Outcome ε α} :
      Yields asked (next asked) o → Yields asked (.poll next) o
  | tick {next : Unit → Action ν ε α} {o : Outcome ε α} :
      Yields asked (next ()) o → Yields asked (.tick next) o
  | join {n : Nat} {part : Fin n → Action ν ε α} {next : (Fin n → α) → Action ν ε α}
      {o : Outcome ε α} (values : Fin n → α) :
      (∀ i, Yields asked (part i) (.ok (values i))) → Yields asked (next values) o →
      Yields asked (.join n part next) o
  | part {n : Nat} {part : Fin n → Action ν ε α} {next : (Fin n → α) → Action ν ε α}
      (i : Fin n) {stop : Stop ε} :
      Yields asked (part i) (.error stop) → Yields asked (.join n part next) (.error stop)

/-- What an action can still come to from the point where it has to wait. -/
def Halt.Yields (asked : Bool) : Halt ν ε α → Outcome ε α → Prop
  | .ended outcome, o => o = outcome
  | .paused rest, o => rest.Yields asked o
  | .forked n part next, o => (Action.join n part next).Yields asked o

/-- Carrying an action on adds nothing to what it can come to. -/
theorem Action.yields_of_advance (action : Action ν ε α) (desk : Desk ν) {o : Outcome ε α}
    (h : (action.advance desk).1.Yields desk.checkpoint.cancelled o) :
    action.Yields desk.checkpoint.cancelled o := by
  induction action generalizing desk with
  | ret value =>
    obtain rfl : o = .ok value := h
    exact .ret value
  | fail error =>
    obtain rfl : o = .error (.error error) := h
    exact .fail error
  | note message next ih => exact .note (ih () (desk.write (.noted message)) h)
  | poll next ih => exact .poll (ih desk.checkpoint.cancelled desk h)
  | tick next ih =>
    -- Whether the tick suspends depends on the desk; what the action can come to does not.
    rw [advance] at h
    split at h
    · exact .tick h
    · exact .tick (ih () desk.pass h)
  | join n part next _ ih =>
    cases n with
    | zero => exact .join _ (fun i => i.elim0) (ih _ desk h)
    | succ n => exact h

/-- Carrying an action on does not ask the run to stop. -/
theorem Action.cancelled_advance (action : Action ν ε α) (desk : Desk ν) :
    (action.advance desk).2.checkpoint.cancelled = desk.checkpoint.cancelled := by
  induction action generalizing desk with
  | ret | fail => rfl
  | note message next ih => exact ih () (desk.write (.noted message))
  | poll next ih => exact ih _ desk
  | tick next ih =>
    rw [advance]
    split
    · rfl
    · exact ih () desk.pass
  | join n part next _ ih =>
    cases n with
    | zero => exact ih _ desk
    | succ n => rfl

namespace Task

/-! ## Tasks that have not been asked to stop -/

/-- A task that has not been asked to stop, and whose outcome will satisfy `P`. A join that has
failed has stopped its parts, so nothing is said of them. -/
inductive LeadsTo (asked : Bool) : (Outcome ε α → Prop) → Task ν ε α → Prop
  | ready {P : Outcome ε α → Prop} {action : Action ν ε α} :
      (∀ o, action.Yields asked o → P o) → LeadsTo asked P (.ready false action)
  | ended {P : Outcome ε α → Prop} {o : Outcome ε α} : P o → LeadsTo asked P (.ended o)
  | gathering {P : Outcome ε α → Prop} {n : Nat} {parts : Fin n → Task ν ε α} {awaited : List Nat}
      {next : (Fin n → α) → Action ν ε α} (Q : Fin n → Outcome ε α → Prop) :
      (∀ i, LeadsTo asked (Q i) (parts i)) →
      (∀ i stop, Q i (.error stop) → P (.error stop)) →
      (∀ values, (∀ i, Q i (.ok (values i))) → ∀ o, (next values).Yields asked o → P o) →
      (∀ i : Fin n, i.val ∉ awaited → ∃ value, parts i = .ended (.ok value)) →
      LeadsTo asked P (.joined n parts (.gathering false) awaited next)
  | settled {P : Outcome ε α → Prop} {n : Nat} {parts : Fin n → Task ν ε α} {awaited : List Nat}
      {next : (Fin n → α) → Action ν ε α} (values : Fin n → α) :
      (∀ i, parts i = .ended (.ok (values i))) → (∀ o, (next values).Yields asked o → P o) →
      LeadsTo asked P (.joined n parts (.settled none) awaited next)
  | failed {P : Outcome ε α → Prop} {n : Nat} {parts : Fin n → Task ν ε α} {awaited : List Nat}
      {next : (Fin n → α) → Action ν ε α} {stop : Stop ε} :
      P (.error stop) → LeadsTo asked P (.joined n parts (.settled (some stop)) awaited next)
  | draining {P : Outcome ε α → Prop} {n : Nat} {parts : Fin n → Task ν ε α} {awaited : List Nat}
      {next : (Fin n → α) → Action ν ε α} {stop : Stop ε} :
      P (.error stop) → LeadsTo asked P (.joined n parts (.draining stop) awaited next)

/-- Nothing happens to a task that is over. -/
theorem visit_ended (whole : List Nat) (act : Act) (path : List Nat) (o : Outcome ε α)
    (desk : Desk ν) : (ended o).visit whole act path desk = (ended o, [], desk) := by
  cases path with
  | nil =>
    cases act with
    | resume => rfl
    | hear again i => cases again <;> rfl
  | cons => rfl

section Parts

variable {n : Nat} {parts : Fin n → Task ν ε α} {awaited : List Nat}
  {next : (Fin n → α) → Action ν ε α}

/-- A join that is decided for the values of its parts goes on with them. -/
theorem resume_settled {values : Fin n → α} (ended : ∀ i, parts i = .ended (.ok (values i)))
    (path : List Nat) (desk : Desk ν) :
    (joined n parts (.settled none) awaited next).resume path desk =
      start false (next values) desk := by
  have some : ∀ i, ((parts i).value?).isSome := fun i => by rw [ended i]; rfl
  have same : (fun i => (parts i).value?.get (some i)) = values := by
    funext i
    simp only [ended i, value?, Option.get_some]
  rw [resume, dif_pos some, same]

/-- When a part has been heard, all parts that are not awaited any more have ended. -/
theorem ended_of_not_mem_erase {i : Nat} (hi : i < n) {value : α}
    (ended : parts ⟨i, hi⟩ = .ended (.ok value))
    (heard : ∀ j : Fin n, j.val ∉ awaited → ∃ value, parts j = .ended (.ok value)) (j : Fin n)
    (hj : j.val ∉ awaited.erase i) : ∃ value, parts j = .ended (.ok value) := by
  by_cases eq : j.val = i
  · obtain rfl : j = ⟨i, hi⟩ := Fin.ext eq
    exact ⟨value, ended⟩
  · exact heard j fun mem => hj ((List.mem_erase_of_ne eq).2 mem)

/-- A part that is over stays as it is when some part has a turn. -/
theorem replace_visit_of_ended (whole : List Nat) (act : Act) (path : List Nat) (desk : Desk ν)
    (i : Fin n) {j : Fin n} {o : Outcome ε α} (h : parts j = .ended o) :
    replace parts i ((parts i).visit whole act path desk).1 j = .ended o := by
  by_cases eq : j = i
  · subst eq
    rw [replace, if_pos rfl, h, visit_ended]
  · rw [replace, if_neg eq, h]

end Parts

variable {asked : Bool} {P : Outcome ε α → Prop}

/-- A task that starts an action is on its way to what the action yields. -/
theorem leadsTo_start {action : Action ν ε α} {desk : Desk ν}
    (h : ∀ o, action.Yields desk.checkpoint.cancelled o → P o) :
    LeadsTo desk.checkpoint.cancelled P (start false action desk).1 := by
  have later := fun o ho => h o (action.yields_of_advance desk (o := o) ho)
  rw [start_eq]
  cases halt : (action.advance desk).1 with
  | ended outcome =>
    rw [halt] at later
    exact .ended (later _ rfl)
  | paused rest =>
    rw [halt] at later
    exact .ready later
  | forked n part next =>
    -- The condition on a part is what the part itself yields.
    rw [halt] at later
    refine .gathering (fun i => (part i).Yields desk.checkpoint.cancelled)
      (fun i => .ready fun _ => id) (fun i stop hi => later _ (.part i hi))
      (fun values hv o ho => later o (.join values hv ho)) ?_
    intro i hi
    exact absurd (List.mem_range.2 i.isLt) hi

/-- A task that resumes stays on its way. -/
theorem leadsTo_resume {t : Task ν ε α} {desk : Desk ν} (path : List Nat)
    (h : LeadsTo desk.checkpoint.cancelled P t) :
    LeadsTo desk.checkpoint.cancelled P (t.resume path desk).1 := by
  cases h with
  | ready h => exact leadsTo_start h
  | ended h => exact .ended h
  | gathering Q leads fails values heard => exact .gathering Q leads fails values heard
  | settled values ended h =>
    rw [resume_settled ended]
    exact leadsTo_start h
  | failed h => exact .draining h
  | draining h =>
    rw [resume]
    split
    · exact .ended h
    · exact .draining h

/-- A task that hears of the end of a part for the first time stays on its way. -/
theorem leadsTo_hearFirst {t : Task ν ε α} (i : Nat) (h : LeadsTo asked P t) :
    LeadsTo asked P (t.hearFirst i).1 := by
  cases h with
  | ready h => exact .ready h
  | ended h => exact .ended h
  | @gathering _ n parts awaited next Q leads fails go heard =>
    have same : LeadsTo asked P (.joined n parts (.gathering false) awaited next) :=
      .gathering Q leads fails go heard
    rw [hearFirst]
    by_cases hi : i < n
    · rw [dif_pos hi]
      have leads_i := leads ⟨i, hi⟩
      cases outcome : (parts ⟨i, hi⟩).outcome? with
      | none => exact same
      | some o =>
        have ended_i := eq_ended_of_outcome? outcome
        rw [ended_i] at leads_i
        cases leads_i with
        | ended reached =>
          cases o with
          | error stop => exact .failed (fails _ _ reached)
          | ok value =>
            have heard' := ended_of_not_mem_erase hi ended_i heard
            simp only
            split
            · exact same
            · split
              · rename_i _ none_left
                have ended : ∀ j, ∃ value, parts j = .ended (.ok value) :=
                  fun j => heard' j (none_left ▸ List.not_mem_nil)
                choose values values_eq using ended
                -- A value satisfies the condition on its part, since the part has led to it.
                refine .settled values values_eq (go values fun j => ?_)
                have leads_j := leads j
                rw [values_eq j] at leads_j
                cases leads_j with
                | ended reached => exact reached
              · exact .gathering Q leads fails go heard'
    · rw [dif_neg hi]
      exact same
  | settled values parts h => exact .settled values parts h
  | failed h => exact .failed h
  | draining h => exact .draining h

/-- A task that hears of the end of a part again stays on its way. -/
theorem leadsTo_hearAgain {t : Task ν ε α} (i : Nat) (h : LeadsTo asked P t) :
    LeadsTo asked P (t.hearAgain i).1 := by
  cases h with
  | ready h => exact .ready h
  | ended h => exact .ended h
  | gathering Q leads fails go heard => exact .gathering Q leads fails go heard
  | settled values parts h => exact .settled values parts h
  | failed h => exact .failed h
  | draining h =>
    rw [hearAgain]
    split
    · exact .draining h
    · exact .draining h

/-- A turn keeps a task on its way, be it a turn of its own or of one of its parts. -/
theorem leadsTo_visit (whole : List Nat) (act : Act) (path : List Nat) {t : Task ν ε α}
    {desk : Desk ν} (h : LeadsTo desk.checkpoint.cancelled P t) :
    LeadsTo desk.checkpoint.cancelled P (t.visit whole act path desk).1 := by
  induction path generalizing t P with
  | nil =>
    cases act with
    | resume => exact leadsTo_resume whole h
    | hear again i =>
      cases again with
      | false => exact leadsTo_hearFirst i h
      | true => exact leadsTo_hearAgain i h
  | cons i path ih =>
    -- The conditions on the parts are those from before; only the part that has its turn changes.
    cases t with
    | ready | ended => exact h
    | joined n parts stage awaited next =>
      rw [visit]
      split
      · rename_i hi
        simp only [get_ofFn]
        cases h with
        | gathering Q leads fails go heard =>
          refine .gathering Q (fun j => ?_) fails go fun j hj => ?_
          · by_cases hji : j = ⟨i, hi⟩
            · subst hji
              rw [replace, if_pos rfl]
              exact ih (leads _)
            · rw [replace, if_neg hji]
              exact leads j
          · obtain ⟨value, hv⟩ := heard j hj
            exact ⟨value, replace_visit_of_ended whole act path desk _ hv⟩
        | settled values ended h =>
          exact .settled values
            (fun j => replace_visit_of_ended whole act path desk _ (ended j)) h
        | failed h => exact .failed h
        | draining h => exact .draining h
      · exact h

/-- A turn does not ask the run to stop. -/
theorem cancelled_visit (whole : List Nat) (act : Act) (path : List Nat) (t : Task ν ε α)
    (desk : Desk ν) :
    (t.visit whole act path desk).2.2.checkpoint.cancelled = desk.checkpoint.cancelled := by
  induction path generalizing t with
  | nil =>
    cases act with
    | hear again i => rfl
    | resume =>
      -- Of the ways to resume, only two carry an action on; the others leave the checkpoint alone.
      change (t.resume whole desk).2.2.checkpoint.cancelled = _
      rw [resume.eq_def]
      split
      · rfl
      · exact Action.cancelled_advance _ desk
      · split
        · exact Action.cancelled_advance _ desk
        · rfl
      · rfl
      · split
        · rename_i stop _ _ _
          cases stop <;> rfl
        · rfl
      · rfl
  | cons i path ih =>
    cases t with
    | ready | ended => rfl
    | joined n parts stage awaited next =>
      rw [visit]
      split
      · exact ih _
      · rfl

end Task

/-! ## The loop -/

/-- The root task of an action is on its way to what the action yields, however long the loop has
been running. -/
theorem leadsTo_settle (action : Action ν ε α) (desk : Desk ν) :
    (begin false action desk).settle.task.LeadsTo desk.checkpoint.cancelled
        (action.Yields desk.checkpoint.cancelled) ∧
      (begin false action desk).settle.desk.checkpoint.cancelled = desk.checkpoint.cancelled := by
  refine State.settle_induction (P := fun s => s.task.LeadsTo desk.checkpoint.cancelled
    (action.Yields desk.checkpoint.cancelled) ∧
      s.desk.checkpoint.cancelled = desk.checkpoint.cancelled)
    (fun s turn rest h _ _ => ?_) _ ⟨?_, ?_⟩
  · obtain ⟨leads, asked⟩ := h
    rw [← asked] at leads ⊢
    exact ⟨Task.leadsTo_visit turn.path turn.act turn.path leads,
      Task.cancelled_visit turn.path turn.act turn.path s.task s.desk⟩
  · exact Task.leadsTo_start fun _ => id
  · exact action.cancelled_advance desk

/-- An action that is carried out without interruption comes to an outcome that it yields. -/
theorem run_yields (action : Action ν ε α) (desk : Desk ν) :
    action.Yields desk.checkpoint.cancelled (run false action desk).outcome := by
  have leads := (leadsTo_settle action desk).1
  rw [settle_begin] at leads
  cases leads with
  | ended h => exact h

/-- Carrying out an action does not ask the run to stop. -/
theorem cancelled_run (action : Action ν ε α) (desk : Desk ν) :
    (run false action desk).desk.checkpoint.cancelled = desk.checkpoint.cancelled :=
  (leadsTo_settle action desk).2

end RangeCalc.Loop
