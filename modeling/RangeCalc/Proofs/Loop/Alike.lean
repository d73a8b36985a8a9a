import RangeCalc.Proofs.Loop.Outcome

/-!
# Values that never come

An action says for all values of its parts how it goes on, but it goes on with those values only
that the parts yield. If one of them fails, what stands behind the join is never reached, and any
other action could stand there. Two actions are *alike* if, left alone, they differ in nothing else:
they take the same steps, hand out the same parts, and are alike with all values that the parts
yield. Actions that are alike go through the loop with the same turns, to the same end.

* `Action.andThen`: an action, and what comes after it if it ends with a value;
* `Action.yields_andThen`: what the two can come to;
* `Task.alike_visit`: a turn of tasks that are alike;
* `run_alike`: actions that are alike have the same run.
-/

namespace RangeCalc.Loop

variable {ν ε α : Type}

/-! ## An action after another -/

namespace Action

/-- An action, and then `next` with its value. -/
def andThen (next : α → Action ν ε α) : Action ν ε α → Action ν ε α
  | ret value => next value
  | fail error => fail error
  | note message rest => note message fun _ => (rest ()).andThen next
  | poll rest => poll fun asked => (rest asked).andThen next
  | tick rest => tick fun _ => (rest ()).andThen next
  | join n part rest => join n part fun values => (rest values).andThen next

/-- What two actions can come to: the first yields a value and the second goes on from there, or the
first fails for both. -/
theorem yields_andThen {asked : Bool} {action : Action ν ε α} {next : α → Action ν ε α}
    {o : Outcome ε α} (h : (action.andThen next).Yields asked o) :
    (∃ v, action.Yields asked (.ok v) ∧ (next v).Yields asked o) ∨
      ∃ stop, action.Yields asked (.error stop) ∧ o = .error stop := by
  induction action with
  | ret value => exact .inl ⟨value, .ret value, h⟩
  | fail error =>
    rcases h
    exact .inr ⟨_, .fail error, rfl⟩
  | note message rest ih =>
    rcases h with _ | _ | later
    rcases ih () later with ⟨v, hv, later⟩ | ⟨stop, failed, eq⟩
    · exact .inl ⟨v, .note hv, later⟩
    · exact .inr ⟨stop, .note failed, eq⟩
  | poll rest ih =>
    rcases h with _ | _ | _ | later
    rcases ih asked later with ⟨v, hv, later⟩ | ⟨stop, failed, eq⟩
    · exact .inl ⟨v, .poll hv, later⟩
    · exact .inr ⟨stop, .poll failed, eq⟩
  | tick rest ih =>
    rcases h with _ | _ | _ | _ | later
    rcases ih () later with ⟨v, hv, later⟩ | ⟨stop, failed, eq⟩
    · exact .inl ⟨v, .tick hv, later⟩
    · exact .inr ⟨stop, .tick failed, eq⟩
  | join n part rest _ ih =>
    rcases h with _ | _ | _ | _ | _ | ⟨values, parts, later⟩ | ⟨i, failed⟩
    · rcases ih values later with ⟨v, hv, later⟩ | ⟨stop, failed, eq⟩
      · exact .inl ⟨v, .join values parts hv, later⟩
      · exact .inr ⟨stop, .join values parts failed, eq⟩
    · exact .inr ⟨_, .part i failed, rfl⟩

/-! ## Actions that are alike -/

/-- Left alone, the two actions differ at most in what they do with values that never come. -/
inductive Alike : Action ν ε α → Action ν ε α → Prop
  | refl (action : Action ν ε α) : Alike action action
  | note {message : ν} {next next' : Unit → Action ν ε α} :
      Alike (next ()) (next' ()) → Alike (.note message next) (.note message next')
  | poll {next next' : Bool → Action ν ε α} :
      Alike (next false) (next' false) → Alike (.poll next) (.poll next')
  | tick {next next' : Unit → Action ν ε α} :
      Alike (next ()) (next' ()) → Alike (.tick next) (.tick next')
  | join {n : Nat} {part : Fin n → Action ν ε α} {next next' : (Fin n → α) → Action ν ε α} :
      (∀ values, (∀ i, (part i).Yields false (.ok (values i))) →
        Alike (next values) (next' values)) →
      Alike (.join n part next) (.join n part next')

/-- What comes after an action matters only for the values that it yields. -/
theorem alike_andThen {action : Action ν ε α} {next next' : α → Action ν ε α}
    (h : ∀ v, action.Yields false (.ok v) → (next v).Alike (next' v)) :
    (action.andThen next).Alike (action.andThen next') := by
  induction action with
  | ret value => exact h value (.ret value)
  | fail error => exact .refl _
  | note message rest ih => exact .note (ih () fun v hv => h v (.note hv))
  | poll rest ih => exact .poll (ih false fun v hv => h v (.poll hv))
  | tick rest ih => exact .tick (ih () fun v hv => h v (.tick hv))
  | join n part rest _ ih =>
    exact .join fun values parts => ih values fun v hv => h v (.join values parts hv)

end Action

/-- The points where two actions that are alike have to wait. -/
inductive Halt.Alike : Halt ν ε α → Halt ν ε α → Prop
  | refl (halt : Halt ν ε α) : Alike halt halt
  | paused {rest rest' : Action ν ε α} : rest.Alike rest' → Alike (.paused rest) (.paused rest')
  | forked {n : Nat} {part : Fin n → Action ν ε α} {next next' : (Fin n → α) → Action ν ε α} :
      (∀ values, (∀ i, (part i).Yields false (.ok (values i))) →
        (next values).Alike (next' values)) →
      Alike (.forked n part next) (.forked n part next')

/-- Actions that are alike have to wait at the same point. -/
theorem Action.alike_advance {action action' : Action ν ε α} (h : action.Alike action')
    {desk : Desk ν} (asked : desk.checkpoint.cancelled = false) :
    (action.advance desk).1.Alike (action'.advance desk).1 ∧
      (action'.advance desk).2 = (action.advance desk).2 := by
  induction h generalizing desk with
  | refl action => exact ⟨.refl _, rfl⟩
  | @note message next next' _ ih =>
    have written : (desk.write (.noted message)).checkpoint.cancelled = false := asked
    exact ih written
  | poll _ ih =>
    rw [advance, advance, asked]
    exact ih asked
  | tick h ih =>
    have passed : desk.pass.checkpoint.cancelled = false := asked
    rw [advance, advance]
    split
    · exact ⟨.paused h, rfl⟩
    · exact ih passed
  | @join n part next next' go ih =>
    rcases n with _ | n
    · exact ih _ (fun i => i.elim0) asked
    · exact ⟨.forked go, rfl⟩

/-! ## Tasks -/

/-- Tasks of actions that are alike. They wait for the same parts, and behind a join that has failed
anything may stand. -/
inductive Task.Alike : Task ν ε α → Task ν ε α → Prop
  | refl (t : Task ν ε α) : Alike t t
  | ready {action action' : Action ν ε α} :
      action.Alike action' → Alike (.ready false action) (.ready false action')
  | gathering {n : Nat} {parts : Fin n → Task ν ε α} {awaited : List Nat}
      {next next' : (Fin n → α) → Action ν ε α} (Q : Fin n → Outcome ε α → Prop) :
      (∀ i, LeadsTo false (Q i) (parts i)) →
      (∀ values, (∀ i, Q i (.ok (values i))) → (next values).Alike (next' values)) →
      (∀ i : Fin n, i.val ∉ awaited → ∃ value, parts i = .ended (.ok value)) →
      Alike (.joined n parts (.gathering false) awaited next)
        (.joined n parts (.gathering false) awaited next')
  | settled {n : Nat} {parts : Fin n → Task ν ε α} {awaited : List Nat}
      {next next' : (Fin n → α) → Action ν ε α} (values : Fin n → α) :
      (∀ i, parts i = .ended (.ok (values i))) → (next values).Alike (next' values) →
      Alike (.joined n parts (.settled none) awaited next)
        (.joined n parts (.settled none) awaited next')
  | failed {n : Nat} {parts : Fin n → Task ν ε α} {awaited : List Nat}
      {next next' : (Fin n → α) → Action ν ε α} {stop : Stop ε} :
      Alike (.joined n parts (.settled (some stop)) awaited next)
        (.joined n parts (.settled (some stop)) awaited next')
  | draining {n : Nat} {parts : Fin n → Task ν ε α} {awaited : List Nat}
      {next next' : (Fin n → α) → Action ν ε α} {stop : Stop ε} :
      Alike (.joined n parts (.draining stop) awaited next)
        (.joined n parts (.draining stop) awaited next')

namespace Task

variable {t t' : Task ν ε α} {desk : Desk ν}

theorem Alike.outcome?_eq (h : t.Alike t') : t'.outcome? = t.outcome? := by
  rcases h <;> rfl

theorem Alike.isEnded_eq (h : t.Alike t') : t'.isEnded = t.isEnded := by
  rw [isEnded, isEnded, h.outcome?_eq]

/-- Both tasks start. -/
theorem alike_start {action action' : Action ν ε α} (h : action.Alike action')
    (asked : desk.checkpoint.cancelled = false) :
    (start false action desk).1.Alike (start false action' desk).1 ∧
      (start false action' desk).2 = (start false action desk).2 := by
  obtain ⟨halts, same⟩ := Action.alike_advance h asked
  rw [start_eq, start_eq, same]
  generalize (action.advance desk).1 = halt, (action'.advance desk).1 = halt' at halts
  rcases halts with _ | h | go
  · exact ⟨.refl _, rfl⟩
  · exact ⟨.ready h, rfl⟩
  · -- What is known of a part is what it yields.
    refine ⟨.gathering _ (fun i => .ready fun _ => id) go fun i hi => ?_, rfl⟩
    exact absurd (List.mem_range.2 i.isLt) hi

/-- Both tasks go on. -/
theorem alike_resume (path : List Nat) (h : t.Alike t')
    (asked : desk.checkpoint.cancelled = false) :
    (t.resume path desk).1.Alike (t'.resume path desk).1 ∧
      (t'.resume path desk).2 = (t.resume path desk).2 := by
  rcases h with _ | h | ⟨Q, leads, go, heard⟩ | ⟨values, ended, go⟩ | _ | _
  · exact ⟨.refl _, rfl⟩
  · exact alike_start h asked
  · exact ⟨.gathering Q leads go heard, rfl⟩
  · rw [resume_settled ended, resume_settled ended]
    exact alike_start go asked
  · exact ⟨.draining, rfl⟩
  · rw [resume, resume]
    split
    · exact ⟨.refl _, rfl⟩
    · exact ⟨.draining, rfl⟩

/-- Both tasks hear of the end of a part for the first time. -/
theorem alike_hearFirst (i : Nat) (h : t.Alike t') :
    (t.hearFirst i).1.Alike (t'.hearFirst i).1 ∧ (t'.hearFirst i).2 = (t.hearFirst i).2 := by
  rcases h with _ | h | ⟨Q, leads, go, heard⟩ | ⟨values, ended, go⟩ | _ | _
  · exact ⟨.refl _, rfl⟩
  · exact ⟨.ready h, rfl⟩
  · rename_i n parts awaited next next'
    have same : Alike (.joined n parts (.gathering false) awaited next)
        (.joined n parts (.gathering false) awaited next') := .gathering Q leads go heard
    rw [hearFirst, hearFirst]
    by_cases hi : i < n
    · rw [dif_pos hi, dif_pos hi]
      rcases outcome : (parts ⟨i, hi⟩).outcome? with _ | _ | value
      · exact ⟨same, rfl⟩
      · exact ⟨.failed, rfl⟩
      · have heard' := ended_of_not_mem_erase hi (eq_ended_of_outcome? outcome) heard
        simp only
        split
        · exact ⟨same, rfl⟩
        · split
          · rename_i _ none_left
            have ended : ∀ j, ∃ value, parts j = .ended (.ok value) :=
              fun j => heard' j (none_left ▸ List.not_mem_nil)
            choose values values_eq using ended
            refine ⟨.settled values values_eq (go values fun j => ?_), rfl⟩
            have leads_j := leads j
            rw [values_eq j] at leads_j
            rcases leads_j with _ | reached
            exact reached
          · exact ⟨.gathering Q leads go heard', rfl⟩
    · rw [dif_neg hi, dif_neg hi]
      exact ⟨same, rfl⟩
  · exact ⟨.settled values ended go, rfl⟩
  · exact ⟨.failed, rfl⟩
  · exact ⟨.draining, rfl⟩

/-- Both tasks hear of the end of a part again. -/
theorem alike_hearAgain (i : Nat) (h : t.Alike t') :
    (t.hearAgain i).1.Alike (t'.hearAgain i).1 ∧ (t'.hearAgain i).2 = (t.hearAgain i).2 := by
  rcases h with _ | h | ⟨Q, leads, go, heard⟩ | ⟨values, ended, go⟩ | _ | _
  · exact ⟨.refl _, rfl⟩
  · exact ⟨.ready h, rfl⟩
  · exact ⟨.gathering Q leads go heard, rfl⟩
  · exact ⟨.settled values ended go, rfl⟩
  · exact ⟨.failed, rfl⟩
  · rw [hearAgain, hearAgain]
    split
    · exact ⟨.draining, rfl⟩
    · exact ⟨.draining, rfl⟩

/-- Both tasks have a turn, be it their own or that of a part. -/
theorem alike_visit (whole : List Nat) (act : Act) (path : List Nat) (h : t.Alike t')
    (asked : desk.checkpoint.cancelled = false) :
    (t.visit whole act path desk).1.Alike (t'.visit whole act path desk).1 ∧
      (t'.visit whole act path desk).2 = (t.visit whole act path desk).2 := by
  rcases path with _ | ⟨i, path⟩
  · rcases act with _ | ⟨again, i⟩
    · exact alike_resume whole h asked
    · rcases again with _ | _
      · obtain ⟨task, turns⟩ := alike_hearFirst i h
        exact ⟨task, congrArg (·, desk) turns⟩
      · obtain ⟨task, turns⟩ := alike_hearAgain i h
        exact ⟨task, congrArg (·, desk) turns⟩
  · -- The part that has its turn is the same part of both tasks.
    rcases h with _ | h | ⟨Q, leads, go, heard⟩ | ⟨values, ended, go⟩ | _ | _
    · exact ⟨.refl _, rfl⟩
    · exact ⟨.ready h, rfl⟩
    · rename_i n parts awaited next next'
      rw [visit, visit]
      split
      · rename_i hi
        refine ⟨?_, rfl⟩
        simp only [get_ofFn]
        refine .gathering Q (fun j => ?_) go fun j hj => ?_
        · by_cases eq : j = ⟨i, hi⟩
          · subst eq
            rw [replace, if_pos rfl, ← asked]
            exact leadsTo_visit whole act path (asked ▸ leads _)
          · rw [replace, if_neg eq]
            exact leads j
        · obtain ⟨value, hv⟩ := heard j hj
          exact ⟨value, replace_visit_of_ended whole act path desk _ hv⟩
      · exact ⟨.gathering Q leads go heard, rfl⟩
    · rw [visit, visit]
      split
      · refine ⟨?_, rfl⟩
        simp only [get_ofFn]
        exact .settled values (fun j => replace_visit_of_ended whole act path desk _ (ended j)) go
      · exact ⟨.settled values ended go, rfl⟩
    · rw [visit, visit]
      split
      · exact ⟨.failed, rfl⟩
      · exact ⟨.failed, rfl⟩
    · rw [visit, visit]
      split
      · exact ⟨.draining, rfl⟩
      · exact ⟨.draining, rfl⟩

end Task

/-! ## The loop -/

/-- The loop with two actions that are alike. -/
structure State.Alike (s s' : State ν ε α) : Prop where
  task : s.task.Alike s'.task
  queue : s'.queue = s.queue
  desk : s'.desk = s.desk
  asked : s.desk.checkpoint.cancelled = false

theorem State.alike_serve {s s' : State ν ε α} (h : s.Alike s') (turn : Turn) (rest : Fifo Turn) :
    (s.serve turn rest).Alike (s'.serve turn rest) := by
  obtain ⟨task, same⟩ := Task.alike_visit turn.path turn.act turn.path h.task h.asked
  rw [← h.desk] at task same
  refine ⟨?_, ?_, ?_, ?_⟩
  · rw [serve, serve, ← h.desk]
    exact task
  · rw [serve, serve, ← h.desk]
    exact congrArg (rest.pushAll ·.1) same
  · rw [serve, serve, ← h.desk]
    exact congrArg (·.2) same
  · exact (Task.cancelled_visit turn.path turn.act turn.path s.task s.desk).trans h.asked

/-- The two loops serve the same turns. -/
theorem State.alike_settle {s s' : State ν ε α} (h : s.Alike s') : s.settle.Alike s'.settle := by
  fun_induction settle s' generalizing s with
  | case1 s' ended =>
    rw [h.task.isEnded_eq] at ended
    rwa [settle_of_isEnded ended]
  | case2 s' live none =>
    rw [h.queue] at none
    rwa [settle_of_none none]
  | case3 s' live turn rest pop ih =>
    rw [h.task.isEnded_eq] at live
    rw [h.queue] at pop
    rw [settle_of_pop live pop]
    exact ih (alike_serve h turn rest)

/-- Left alone, actions that are alike have the same run. -/
theorem run_alike {action action' : Action ν ε α} (h : action.Alike action') {desk : Desk ν}
    (asked : desk.checkpoint.cancelled = false) :
    run false action' desk = run false action desk := by
  obtain ⟨task, same⟩ := Task.alike_start h asked
  have first : (begin false action desk).Alike (begin false action' desk) := by
    refine ⟨task, ?_, ?_, ?_⟩
    · exact congrArg (Fifo.ofList ·.1) same
    · exact congrArg (·.2) same
    · exact (action.cancelled_advance desk).trans asked
  have last := State.alike_settle first
  simp only [run, last.task.outcome?_eq, last.desk, Bool.false_and]

end RangeCalc.Loop
