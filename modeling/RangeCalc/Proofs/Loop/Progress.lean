import RangeCalc.Loop.Run

/-!
# No task is forgotten

The loop ends when the root task is over or when no turn is left. The second never comes first: a
task that can go on has a turn in the queue, and one that waits for its parts will hear of each of
them. Whether a task has been asked to stop makes no difference to this.

* `Task.Served`: the turns that a task needs are pending;
* `Task.served_visit`: a turn uses up a need and leaves the turns that it gives rise to;
* `settle_begin`: so an action that is carried out comes to an outcome.
-/

namespace RangeCalc.Loop

variable {ν ε α : Type}

/-- Only a join with parts waits for them. -/
theorem Action.pos_of_advance_eq_forked (action : Action ν ε α) (desk : Desk ν) {n : Nat}
    {part : Fin n → Action ν ε α} {next : (Fin n → α) → Action ν ε α}
    (h : (action.advance desk).1 = .forked n part next) : 0 < n := by
  induction action generalizing desk with
  | ret | fail => cases h
  | note message next ih => exact ih () _ h
  | poll next ih => exact ih _ _ h
  | tick next ih =>
    rw [advance] at h
    split at h
    · cases h
    · exact ih () _ h
  | join m part next _ ih =>
    -- A join without parts has nothing to wait for and goes on at once.
    cases m with
    | zero => exact ih _ _ h
    | succ m =>
      cases h
      exact Nat.succ_pos m

namespace Task

/-- Starting an action leaves the task of the point where it has to wait. -/
theorem start_eq (stopped : Bool) (action : Action ν ε α) (desk : Desk ν) :
    start stopped action desk =
      ((ofHalt stopped (action.advance desk).1).1, (ofHalt stopped (action.advance desk).1).2,
        (action.advance desk).2) :=
  rfl

/-- A task that has an outcome has ended with it. -/
theorem eq_ended_of_outcome? {t : Task ν ε α} {o : Outcome ε α} (h : t.outcome? = some o) :
    t = .ended o := by
  cases t with
  | ended => rw [outcome?, Option.some_inj] at h; rw [h]
  | ready | joined => cases h

/-- A task that is over has ended with an outcome. -/
theorem eq_ended_of_isEnded {t : Task ν ε α} (h : t.isEnded) : ∃ o, t = .ended o := by
  obtain ⟨o, ho⟩ := Option.isSome_iff_exists.1 h
  exact ⟨o, eq_ended_of_outcome? ho⟩

/-- A join will hear of every part that it awaits: the part is not over, or the turn to hear of it
is pending. -/
def Hears (pending : Turn → Prop) (again : Bool) {n : Nat} (parts : Fin n → Task ν ε α)
    (awaited : List Nat) : Prop :=
  awaited.Nodup ∧
    ∀ i ∈ awaited, ∃ h : i < n, (parts ⟨i, h⟩).isEnded → pending ⟨[], .hear again i⟩

/-- The turns that a task needs in order to come to its end are pending. -/
def Served : Task ν ε α → (Turn → Prop) → Prop
  | ready _ _, pending => pending ⟨[], .resume⟩
  | ended _, _ => True
  | joined n parts stage awaited _, pending =>
    (∀ i, (parts i).Served fun turn => pending (turn.under i)) ∧
      match stage with
      | .gathering _ => awaited ≠ [] ∧ Hears pending false parts awaited
      | .settled _ => 0 < n ∧ pending ⟨[], .resume⟩
      | .draining _ => (awaited = [] → pending ⟨[], .resume⟩) ∧ Hears pending true parts awaited

variable {pending pending' : Turn → Prop}

/-- A join still hears of its parts if its own turns stay pending. -/
theorem Hears.mono {again : Bool} {n : Nat} {parts : Fin n → Task ν ε α} {awaited : List Nat}
    (h : Hears pending again parts awaited)
    (keep : ∀ i, pending ⟨[], .hear again i⟩ → pending' ⟨[], .hear again i⟩) :
    Hears pending' again parts awaited := by
  refine ⟨h.1, fun i hi => ?_⟩
  obtain ⟨lt, hears⟩ := h.2 i hi
  exact ⟨lt, fun ended => keep i (hears ended)⟩

/-- A task is served by more turns as well. -/
theorem Served.mono {t : Task ν ε α} (h : t.Served pending)
    (keep : ∀ turn, pending turn → pending' turn) : t.Served pending' := by
  induction t generalizing pending pending' with
  | ready => exact keep _ h
  | ended => exact h
  | joined n parts stage awaited next ih =>
    -- A part sees the turns through its own path, so the induction is for all `pending`.
    refine ⟨fun i => ih i (h.1 i) fun turn => keep _, ?_⟩
    cases stage with
    | gathering => exact ⟨h.2.1, h.2.2.mono fun i => keep _⟩
    | settled => exact ⟨h.2.1, keep _ h.2.2⟩
    | draining => exact ⟨fun none => keep _ (h.2.1 none), h.2.2.mono fun i => keep _⟩

/-- A request to stop does not end a task. -/
@[simp]
theorem isEnded_cancel (t : Task ν ε α) : t.cancel.isEnded = t.isEnded :=
  isEnded_of_shape_eq (shape_cancel t)

/-- A task that is asked to stop needs the same turns. -/
theorem Served.cancel {t : Task ν ε α} (h : t.Served pending) : t.cancel.Served pending := by
  induction t generalizing pending with
  | ready => exact h
  | ended => exact h
  | joined n parts stage awaited next ih =>
    cases stage with
    | gathering stopped =>
      rw [Task.cancel]
      split
      · exact h
      · rw [get_ofFn]
        refine ⟨fun i => ih i (h.1 i), h.2.1, ?_⟩
        simpa only [Hears, isEnded_cancel] using h.2.2
    | settled stop => exact h
    | draining stop =>
      rw [Task.cancel, get_ofFn]
      refine ⟨fun i => ih i (h.1 i), h.2.1, ?_⟩
      simpa only [Hears, isEnded_cancel] using h.2.2

/-- A task that starts an action needs the turns that this gives rise to. -/
theorem served_start (stopped : Bool) (action : Action ν ε α) (desk : Desk ν)
    (new : ∀ turn ∈ (start stopped action desk).2.1, pending turn) :
    (start stopped action desk).1.Served pending := by
  rw [start_eq] at new ⊢
  cases halt : (action.advance desk).1 with
  | ended => exact trivial
  | paused rest =>
    rw [halt] at new
    exact new _ (List.mem_singleton_self _)
  | forked n part next =>
    -- The parts are about to start: each has its first turn, and none is over yet.
    rw [halt] at new
    have pos := action.pos_of_advance_eq_forked desk halt
    refine ⟨fun i => new _ (List.mem_map.2 ⟨i, List.mem_range.2 i.isLt, rfl⟩), ?_,
      List.nodup_range, ?_⟩
    · intro none
      rw [List.range_eq_nil] at none
      omega
    · exact fun i hi => ⟨List.mem_range.1 hi, fun ended => nomatch ended⟩

/-- A join that has been heard of the part `i` does not need to hear of it any more. -/
theorem Hears.erase {again : Bool} {n : Nat} {parts : Fin n → Task ν ε α} {awaited : List Nat}
    {i : Nat} (h : Hears pending again parts awaited)
    (keep : ∀ turn, pending turn → turn ≠ ⟨[], .hear again i⟩ → pending' turn) :
    Hears pending' again parts (awaited.erase i) := by
  refine ⟨h.1.erase i, fun j hj => ?_⟩
  obtain ⟨ne, mem⟩ := h.1.mem_erase_iff.1 hj
  obtain ⟨lt, hears⟩ := h.2 j mem
  refine ⟨lt, fun ended => keep _ (hears ended) ?_⟩
  rintro ⟨⟩
  exact ne rfl

/-- A task that resumes needs the turns that this gives rise to. -/
theorem served_resume (path : List Nat) {t : Task ν ε α} (desk : Desk ν) (h : t.Served pending)
    (keep : ∀ turn, pending turn → turn ≠ ⟨[], .resume⟩ → pending' turn)
    (new : ∀ turn ∈ (t.resume path desk).2.1, pending' turn) :
    (t.resume path desk).1.Served pending' := by
  cases t with
  | ready stopped action =>
    cases stopped with
    | true => exact trivial
    | false => exact served_start false action desk new
  | ended => exact trivial
  | joined n parts stage awaited next =>
    -- The turns of the parts have a longer path, so this one is none of them.
    have below : ∀ i, (parts i).Served fun turn => pending' (turn.under i) :=
      fun i => (h.1 i).mono fun turn hturn => keep _ hturn nofun
    cases stage with
    | gathering stopped => exact ⟨below, h.2.1, h.2.2.mono fun i hi => keep _ hi nofun⟩
    | settled stop =>
      -- A join that has all values goes on; one that has failed stops its parts and drains them.
      cases stop with
      | none =>
        rw [resume] at new ⊢
        split at new
        · rw [dif_pos (by assumption)]
          exact served_start false _ desk new
        · rw [dif_neg (by assumption)]
          exact trivial
      | some stop =>
        refine ⟨fun i => ?_, fun none => ?_, List.nodup_range, fun i hi => ?_⟩
        · rw [get_ofFn]
          exact (below i).cancel
        · rw [List.range_eq_nil] at none
          exact absurd none (Nat.ne_of_gt h.2.1)
        · -- The parts that are over already are heard of by the turns given rise to now.
          have lt := List.mem_range.1 hi
          refine ⟨lt, fun ended => new _ (List.mem_map.2 ⟨i, ?_, rfl⟩)⟩
          rw [get_ofFn, isEnded_cancel] at ended
          exact List.mem_map.2 ⟨⟨i, lt⟩, List.mem_filter.2 ⟨List.mem_finRange _, ended⟩, rfl⟩
    | draining stop =>
      rw [resume]
      split
      · exact trivial
      · rename_i some
        exact ⟨below, fun none => absurd none some, h.2.2.mono fun i hi => keep _ hi nofun⟩

/-- A task that hears of the end of a part for the first time needs the turns that this gives rise
to. -/
theorem served_hearFirst (i : Nat) {t : Task ν ε α} (h : t.Served pending)
    (keep : ∀ turn, pending turn → turn ≠ ⟨[], .hear false i⟩ → pending' turn)
    (new : ∀ turn ∈ (t.hearFirst i).2, pending' turn) : (t.hearFirst i).1.Served pending' := by
  cases t with
  | ready => exact keep _ h nofun
  | ended => exact trivial
  | joined n parts stage awaited next =>
    have below : ∀ i, (parts i).Served fun turn => pending' (turn.under i) :=
      fun i => (h.1 i).mono fun turn hturn => keep _ hturn nofun
    cases stage with
    | settled stop => exact ⟨below, h.2.1, keep _ h.2.2 nofun⟩
    | draining stop =>
      exact ⟨below, fun none => keep _ (h.2.1 none) nofun, h.2.2.mono fun i hi => keep _ hi nofun⟩
    | gathering stopped =>
      -- Where nothing comes of the turn, the part is not awaited or not over.
      have same : i ∉ awaited ∨ (∃ lt : i < n, (parts ⟨i, lt⟩).outcome? = none) →
          (joined n parts (.gathering stopped) awaited next).Served pending' := by
        refine fun idle => ⟨below, h.2.1, h.2.2.1, fun j hj => ?_⟩
        obtain ⟨lt, hears⟩ := h.2.2.2 j hj
        refine ⟨lt, fun ended => keep _ (hears ended) ?_⟩
        rintro ⟨⟩
        rcases idle with out | ⟨_, live⟩
        · exact out hj
        · rw [isEnded, live] at ended
          cases ended
      rw [hearFirst] at new ⊢
      by_cases lt : i < n
      · rw [dif_pos lt] at new ⊢
        cases outcome : (parts ⟨i, lt⟩).outcome? with
        | none => exact same (.inr ⟨lt, outcome⟩)
        | some o =>
          rw [outcome] at new
          cases o with
          | error stop =>
            exact ⟨below, Nat.zero_lt_of_lt lt, new _ (List.mem_singleton_self _)⟩
          | ok value =>
            simp only at new ⊢
            by_cases mem : i ∈ awaited
            · rw [if_neg (not_not_intro mem)] at new ⊢
              by_cases last : awaited.erase i = []
              · rw [if_pos last] at new ⊢
                exact ⟨below, Nat.zero_lt_of_lt lt, new _ (List.mem_singleton_self _)⟩
              · rw [if_neg last]
                exact ⟨below, last, h.2.2.erase keep⟩
            · rw [if_pos mem]
              exact same (.inl mem)
      · rw [dif_neg lt]
        refine same (.inl fun mem => ?_)
        obtain ⟨lt', _⟩ := h.2.2.2 i mem
        exact lt lt'

/-- A task that hears of the end of a part again needs the turns that this gives rise to. -/
theorem served_hearAgain (i : Nat) {t : Task ν ε α} (h : t.Served pending)
    (keep : ∀ turn, pending turn → turn ≠ ⟨[], .hear true i⟩ → pending' turn)
    (new : ∀ turn ∈ (t.hearAgain i).2, pending' turn) : (t.hearAgain i).1.Served pending' := by
  cases t with
  | ready => exact keep _ h nofun
  | ended => exact trivial
  | joined n parts stage awaited next =>
    have below : ∀ i, (parts i).Served fun turn => pending' (turn.under i) :=
      fun i => (h.1 i).mono fun turn hturn => keep _ hturn nofun
    cases stage with
    | gathering stopped => exact ⟨below, h.2.1, h.2.2.mono fun i hi => keep _ hi nofun⟩
    | settled stop => exact ⟨below, h.2.1, keep _ h.2.2 nofun⟩
    | draining stop =>
      -- The last part to be heard of gives rise to the turn that ends the join.
      have hears := h.2.2.erase keep
      rw [hearAgain] at new ⊢
      by_cases mem : i ∈ awaited
      · rw [if_neg (not_not_intro mem)] at new ⊢
        refine ⟨below, fun last => ?_, hears⟩
        rw [if_pos last] at new
        exact new _ (List.mem_singleton_self _)
      · rw [if_pos mem]
        rw [List.erase_of_not_mem mem] at hears
        exact ⟨below, fun none => keep _ (h.2.1 none) nofun, hears⟩

/-- A join still hears of its parts when one of them has changed, if it will hear of the end of that
one. -/
theorem Hears.replace {again : Bool} {n : Nat} {parts : Fin n → Task ν ε α} {awaited : List Nat}
    {i : Fin n} {after : Task ν ε α} (h : Hears pending again parts awaited)
    (keep : ∀ j, pending ⟨[], .hear again j⟩ → pending' ⟨[], .hear again j⟩)
    (ends : after.isEnded → ¬(parts i).isEnded → pending' ⟨[], .hear again i⟩) :
    Hears pending' again (Task.replace parts i after) awaited := by
  refine ⟨h.1, fun j hj => ?_⟩
  obtain ⟨lt, hears⟩ := h.2 j hj
  refine ⟨lt, fun ended => ?_⟩
  -- Only a part that ends with this change is news; the turn for any other is pending already.
  by_cases before : (parts ⟨j, lt⟩).isEnded
  · exact keep j (hears before)
  · by_cases hji : ⟨j, lt⟩ = i
    · subst hji
      rw [Task.replace, if_pos rfl] at ended
      exact ends ended before
    · rw [Task.replace, if_neg hji] at ended
      exact absurd ended before

/-- A turn that is used up leaves a task with the turns that it needs: those that were pending, and
those that the turn gives rise to. -/
theorem served_visit (whole : List Nat) (act : Act) (path : List Nat) {t : Task ν ε α}
    (desk : Desk ν) (h : t.Served pending)
    (keep : ∀ turn, pending turn → turn ≠ ⟨path, act⟩ → pending' turn)
    (new : ∀ turn ∈ (t.visit whole act path desk).2.1, pending' turn) :
    (t.visit whole act path desk).1.Served pending' := by
  -- By induction on the path down to the task whose turn it is. There it is one of the three acts;
  -- above, the join hears of a part that has ended by it.
  induction path generalizing t pending pending' with
  | nil =>
    cases act with
    | resume => exact served_resume whole desk h keep new
    | hear again i =>
      cases again with
      | false => exact served_hearFirst i h keep new
      | true => exact served_hearAgain i h keep new
  | cons i path ih =>
    cases t with
    | ready => exact keep _ h nofun
    | ended => exact trivial
    | joined n parts stage awaited next =>
      -- The join's own turns have the empty path, so this one is none of them.
      have own : ∀ act', pending ⟨[], act'⟩ → pending' ⟨[], act'⟩ :=
        fun _ hturn => keep _ hturn nofun
      have others : ∀ j : Fin n, j.val ≠ i →
          (parts j).Served fun turn => pending' (turn.under j) := by
        refine fun j hji => (h.1 j).mono fun turn hturn => keep _ hturn ?_
        rintro ⟨⟩
        exact hji rfl
      rw [visit] at new ⊢
      by_cases lt : i < n
      · rw [dif_pos lt] at new ⊢
        simp only [get_ofFn] at new ⊢
        have ends : ((parts ⟨i, lt⟩).visit whole act path desk).1.isEnded →
            ¬(parts ⟨i, lt⟩).isEnded → pending' ⟨[], .hear stage.isDraining i⟩ := by
          intro ended live
          refine new _ (List.mem_append.2 (.inr ?_))
          rw [if_pos (by simp [ended, live])]
          exact List.mem_singleton_self _
        refine ⟨fun j => ?_, ?_⟩
        · by_cases hji : j = ⟨i, lt⟩
          · subst hji
            rw [replace, if_pos rfl]
            refine ih (h.1 _) (fun turn hturn ne => keep _ hturn ?_) fun _ hturn =>
              new _ (List.mem_append.2 (.inl (List.mem_map_of_mem hturn)))
            rintro same
            cases turn
            cases same
            exact ne rfl
          · rw [replace, if_neg hji]
            exact others j fun val => hji (Fin.ext val)
        · cases stage with
          | gathering => exact ⟨h.2.1, h.2.2.replace (fun j => own _) ends⟩
          | settled => exact ⟨h.2.1, own _ h.2.2⟩
          | draining => exact ⟨fun none => own _ (h.2.1 none), h.2.2.replace (fun j => own _) ends⟩
      · rw [dif_neg lt]
        refine ⟨fun j => others j (by omega), ?_⟩
        cases stage with
        | gathering => exact ⟨h.2.1, h.2.2.mono fun j => own _⟩
        | settled => exact ⟨h.2.1, own _ h.2.2⟩
        | draining => exact ⟨fun none => own _ (h.2.1 none), h.2.2.mono fun j => own _⟩

/-- A task that is not over has a turn. -/
theorem Served.exists_pending {t : Task ν ε α} (h : t.Served pending) (live : ¬t.isEnded) :
    ∃ turn, pending turn := by
  induction t generalizing pending with
  | ready => exact ⟨_, h⟩
  | ended => exact absurd rfl live
  | joined n parts stage awaited next ih =>
    -- A part that is awaited has a turn itself, or the join has one to hear of its end.
    have heard : ∀ again i, i ∈ awaited → Hears pending again parts awaited →
        ∃ turn, pending turn := by
      intro again i hi hears
      obtain ⟨lt, hear⟩ := hears.2 i hi
      by_cases ended : (parts ⟨i, lt⟩).isEnded
      · exact ⟨_, hear ended⟩
      · obtain ⟨turn, hturn⟩ := ih _ (h.1 _) ended
        exact ⟨_, hturn⟩
    cases stage with
    | gathering =>
      obtain ⟨i, hi⟩ := List.exists_mem_of_ne_nil _ h.2.1
      exact heard _ i hi h.2.2
    | settled => exact ⟨_, h.2.2⟩
    | draining =>
      by_cases none : awaited = []
      · exact ⟨_, h.2.1 none⟩
      · obtain ⟨i, hi⟩ := List.exists_mem_of_ne_nil _ none
        exact heard _ i hi h.2.2

end Task

/-! ## The loop -/

/-- The root task has the turns that it needs in the queue. -/
def State.Served (s : State ν ε α) : Prop := s.task.Served (· ∈ s.queue.toList)

/-- The first step of an action puts the turns that it needs into the queue. -/
theorem served_begin (interrupted : Bool) (action : Action ν ε α) (desk : Desk ν) :
    (begin interrupted action desk).Served :=
  Task.served_start interrupted action desk fun _ hturn =>
    (Fifo.toList_ofList (Task.start interrupted action desk).2.1).symm ▸ hturn

/-- Every turn leaves the root task with the turns that it needs. -/
theorem State.served_serve {s : State ν ε α} {turn : Turn} {rest : Fifo Turn} (h : s.Served)
    (pop : s.queue.pop? = some (turn, rest)) : (s.serve turn rest).Served := by
  have queue := Fifo.toList_of_pop?_eq_some pop
  refine Task.served_visit turn.path turn.act turn.path s.desk h (fun other mem ne => ?_)
    fun new mem => ?_
  · rw [queue, List.mem_cons] at mem
    rcases mem with rfl | mem
    · exact absurd rfl ne
    · exact Fifo.toList_pushAll rest _ ▸ List.mem_append.2 (.inl mem)
  · exact Fifo.toList_pushAll rest _ ▸ List.mem_append.2 (.inr mem)

/-- The loop does not stop before the root task is over. -/
theorem State.isEnded_settle (s : State ν ε α) (h : s.Served) : s.settle.task.isEnded := by
  fun_induction settle s with
  | case1 s ended => exact ended
  | case2 s live none =>
    -- An empty queue and a task that needs a turn from it exclude each other.
    obtain ⟨turn, mem⟩ := Task.Served.exists_pending h live
    rw [Fifo.pop?_eq_none_iff.1 none] at mem
    exact absurd mem List.not_mem_nil
  | case3 s live turn rest pop ih => exact ih (served_serve h pop)

/-- An action that is carried out comes to an outcome. -/
theorem settle_begin (interrupted : Bool) (action : Action ν ε α) (desk : Desk ν) :
    (begin interrupted action desk).settle.task =
      .ended (run interrupted action desk).outcome := by
  obtain ⟨o, ho⟩ := Task.eq_ended_of_isEnded
    (State.isEnded_settle _ (served_begin interrupted action desk))
  have outcome : (run interrupted action desk).outcome = o := by
    simp only [run, ho, Task.outcome?, Option.getD_some]
  rw [ho, outcome]

end RangeCalc.Loop
