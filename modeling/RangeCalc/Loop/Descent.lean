import RangeCalc.Loop.Task

/-!
# Every turn leaves less to do

The loop comes to an end because a turn either changes nothing and is used up, or leaves a task with
less to do. What a task has to do is its *shape*: the action it still has to carry out, or the shapes
of the parts it waits for together with the state of its join. Requests to stop do not show in it.

* `Shape.Follows` says how one turn changes a shape;
* `Shape.follows_wf`: no shape can be changed for ever. An action is a tree without infinite
  branches, and so is a join once its parts are;
* `Task.shape_visit`: a turn changes the shape in one of these ways, or it changes nothing and gives
  rise to no further turn.
-/

namespace RangeCalc.Loop

variable {ν ε α : Type}

/-- What a task has to do. -/
inductive Shape (ν ε α : Type)
  /-- Nothing. -/
  | done
  /-- An action. -/
  | todo (action : Action ν ε α)
  /-- A join: its parts, its stage and how many parts have not been heard. -/
  | wait (n : Nat) (parts : Fin n → Shape ν ε α) (rank left : Nat)
      (next : (Fin n → α) → Action ν ε α)

/-- How many stages of a join lie ahead. -/
def Stage.rank : Stage ε → Nat
  | gathering _ => 2
  | settled _ => 1
  | draining _ => 0

/-- The shape of a task. -/
def Task.shape : Task ν ε α → Shape ν ε α
  | ready _ action => .todo action
  | joined n parts stage awaited next =>
    .wait n (fun i => (parts i).shape) stage.rank awaited.length next
  | ended _ => .done

namespace Shape

/-- The shape of a task whose action has come to this point. -/
def ofHalt : Halt ν ε α → Shape ν ε α
  | .ended _ => done
  | .paused rest => todo rest
  | .forked n part next => wait n (fun i => todo (part i)) 2 n next

/-- The first shape is what a turn may leave of the second. -/
inductive Follows : Shape ν ε α → Shape ν ε α → Prop
  | done_todo (action : Action ν ε α) : Follows done (todo action)
  | done_wait {n : Nat} (parts : Fin n → Shape ν ε α) (rank left : Nat)
      (next : (Fin n → α) → Action ν ε α) : Follows done (wait n parts rank left next)
  | todo (action : Action ν ε α) (desk : Desk ν) :
      Follows (ofHalt (action.advance desk).1) (todo action)
  | next {n : Nat} (parts : Fin n → Shape ν ε α) (rank left : Nat)
      (next : (Fin n → α) → Action ν ε α) (values : Fin n → α) (desk : Desk ν) :
      Follows (ofHalt ((next values).advance desk).1) (wait n parts rank left next)
  | part {n : Nat} (parts : Fin n → Shape ν ε α) (rank left : Nat)
      (next : (Fin n → α) → Action ν ε α) (i : Fin n) (shape : Shape ν ε α) :
      Follows shape (parts i) →
      Follows (wait n (fun j => if j = i then shape else parts j) rank left next)
        (wait n parts rank left next)
  | rank {n : Nat} (parts : Fin n → Shape ν ε α) (rank left rank' left' : Nat)
      (next : (Fin n → α) → Action ν ε α) : rank' < rank →
      Follows (wait n parts rank' left' next) (wait n parts rank left next)
  | left {n : Nat} (parts : Fin n → Shape ν ε α) (rank left left' : Nat)
      (next : (Fin n → α) → Action ν ε α) : left' < left →
      Follows (wait n parts rank left' next) (wait n parts rank left next)

/-- One member of a family is changed. -/
def OneChanged {S : Type} (r : S → S → Prop) {n : Nat} (f' f : Fin n → S) : Prop :=
  ∃ i x, r x (f i) ∧ f' = fun j => if j = i then x else f j

/-- A family can be changed member by member only finitely often, if each member can. -/
theorem acc_oneChanged {S : Type} {r : S → S → Prop} :
    ∀ {n : Nat} (f : Fin n → S), (∀ i, Acc r (f i)) → Acc (OneChanged r) f
  | 0, f, _ => Acc.intro f fun _ ⟨i, _⟩ => i.elim0
  | n + 1, f, h => by
    -- The first member and the family of the others, each of which can be changed finitely often.
    suffices key : ∀ x, Acc r x → ∀ g : Fin n → S, Acc (OneChanged r) g →
        ∀ f : Fin (n + 1) → S, f 0 = x → (fun i => f (Fin.succ i)) = g → Acc (OneChanged r) f from
      key (f 0) (h 0) _ (acc_oneChanged _ fun i => h i.succ) f rfl rfl
    intro x hx
    induction hx with
    | intro x _ ihx =>
      intro g hg
      induction hg with
      | intro g hg ihg =>
        intro f hf hfg
        refine Acc.intro f ?_
        rintro f' ⟨i, y, hy, rfl⟩
        refine i.cases (motive := fun i => r y (f i) →
            Acc (OneChanged r) fun j => if j = i then y else f j) ?_ ?_ hy
        · intro hy
          refine ihx y (hf ▸ hy) g (Acc.intro g hg) _ (by simp) ?_
          simpa [Fin.succ_ne_zero] using hfg
        · intro i hy
          refine ihg _ ⟨i, y, by simpa [← hfg] using hy, rfl⟩ _ (by simpa [(Fin.succ_ne_zero i).symm] using hf) ?_
          funext j
          simp [← hfg]

/-- Nothing is left of `done`. -/
theorem acc_done : Acc (Follows (ν := ν) (ε := ε) (α := α)) done :=
  Acc.intro _ fun _ h => nomatch h

/-- A join can be changed only finitely often, if each of its parts and what comes after it can. -/
theorem acc_wait {n : Nat} {next : (Fin n → α) → Action ν ε α}
    (hnext : ∀ values, Acc Follows (todo (next values))) (parts : Fin n → Shape ν ε α)
    (hparts : ∀ i, Acc Follows (parts i)) (rank left : Nat) :
    Acc Follows (wait n parts rank left next) := by
  have family := acc_oneChanged parts hparts
  clear hparts
  induction family generalizing rank left with
  | intro parts _ ihparts =>
    induction rank using Nat.strongRecOn generalizing left with
    | ind rank ihrank =>
      induction left using Nat.strongRecOn with
      | ind left ihleft =>
        refine Acc.intro _ fun shape follows => ?_
        cases follows with
        | done_wait => exact acc_done
        | next _ _ _ _ values desk => exact (hnext values).inv (Follows.todo _ desk)
        | part _ _ _ _ i shape h => exact ihparts _ ⟨i, shape, h, rfl⟩ rank left
        | rank _ _ _ rank' left' _ h => exact ihrank rank' h left'
        | left _ _ _ left' _ h => exact ihleft left' h

/-- An action can be carried on only finitely often. -/
theorem acc_todo (action : Action ν ε α) : Acc Follows (todo action) := by
  induction action with
  | ret | fail =>
    refine Acc.intro _ fun shape follows => ?_
    cases follows with
    | done_todo => exact acc_done
    | todo _ desk => exact acc_done
  | note message next ih =>
    refine Acc.intro _ fun shape follows => ?_
    cases follows with
    | done_todo => exact acc_done
    | todo _ desk =>
      rw [Action.advance]
      exact (ih ()).inv (Follows.todo _ _)
  | poll next ih =>
    refine Acc.intro _ fun shape follows => ?_
    cases follows with
    | done_todo => exact acc_done
    | todo _ desk =>
      rw [Action.advance]
      exact (ih _).inv (Follows.todo _ _)
  | tick next ih =>
    refine Acc.intro _ fun shape follows => ?_
    cases follows with
    | done_todo => exact acc_done
    | todo _ desk =>
      rw [Action.advance]
      split
      · exact ih ()
      · exact (ih ()).inv (Follows.todo _ _)
  | join n part next ihpart ihnext =>
    refine Acc.intro _ fun shape follows => ?_
    cases follows with
    | done_todo => exact acc_done
    | todo _ desk =>
      cases n with
      | zero =>
        rw [Action.advance]
        exact (ihnext _).inv (Follows.todo _ _)
      | succ n => exact acc_wait ihnext _ ihpart _ _

/-- No shape can be changed for ever. -/
theorem follows_wf : WellFounded (Follows (ν := ν) (ε := ε) (α := α)) := by
  refine ⟨fun shape => ?_⟩
  induction shape with
  | done => exact acc_done
  | todo action => exact acc_todo action
  | wait n parts rank left next ih => exact acc_wait (fun _ => acc_todo _) parts ih rank left

end Shape

namespace Task

/-- Reading a table of a family gives the family. -/
@[simp]
theorem get_ofFn {S : Type} {n : Nat} (f : Fin n → S) : (Vector.ofFn f).get = f := by
  funext i
  simp [Vector.get, Vector.ofFn]
  rfl

/-- A request to stop does not show in the shape. -/
@[simp]
theorem shape_cancel (t : Task ν ε α) : t.cancel.shape = t.shape := by
  induction t with
  | ready stopped action => rfl
  | ended outcome => rfl
  | joined n parts stage awaited next ih =>
    cases stage with
    | gathering stopped =>
      rw [cancel]
      split
      · rfl
      · simp [shape, ih]
    | settled stop => rfl
    | draining stop => simp [cancel, shape, ih, Stage.rank]

/-- Where an action has to wait, the task has the shape of that point. -/
theorem shape_ofHalt (stopped : Bool) (halt : Halt ν ε α) :
    (ofHalt stopped halt).1.shape = Shape.ofHalt halt := by
  cases halt <;> simp [ofHalt, Shape.ofHalt, shape, Stage.rank]

/-- Starting an action leaves the shape of the point where it has to wait. -/
theorem shape_start (stopped : Bool) (action : Action ν ε α) (desk : Desk ν) :
    (start stopped action desk).1.shape = Shape.ofHalt (action.advance desk).1 :=
  shape_ofHalt ..

/-- A task that resumes has less to do, or nothing comes of it. -/
theorem shape_resume (path : List Nat) (t : Task ν ε α) (desk : Desk ν) :
    ((t.resume path desk).1.shape = t.shape ∧ (t.resume path desk).2.1 = []) ∨
      Shape.Follows (t.resume path desk).1.shape t.shape := by
  unfold resume
  split
  · exact .inr (.done_todo _)
  · rw [shape_start]
    exact .inr (.todo _ _)
  · split
    · rw [shape_start]
      exact .inr (.next ..)
    · exact .inr (.done_wait ..)
  · refine .inr ?_
    simp only [shape, get_ofFn, shape_cancel, Stage.rank]
    exact .rank _ _ _ _ _ _ (by omega)
  · split
    · exact .inr (.done_wait ..)
    · exact .inl ⟨rfl, rfl⟩
  · exact .inl ⟨rfl, rfl⟩

/-- A part that is struck from the awaited ones leaves fewer of them. -/
theorem length_erase_lt {i : Nat} {awaited : List Nat} (h : ¬i ∉ awaited) :
    (awaited.erase i).length < awaited.length := by
  have mem : i ∈ awaited := by simpa using h
  have pos := List.length_pos_of_mem mem
  rw [List.length_erase_of_mem mem]
  omega

/-- A task that hears of the end of a part for the first time has less to do, or nothing comes of it. -/
theorem shape_hearFirst (i : Nat) (t : Task ν ε α) :
    ((t.hearFirst i).1.shape = t.shape ∧ (t.hearFirst i).2 = []) ∨
      Shape.Follows (t.hearFirst i).1.shape t.shape := by
  unfold hearFirst
  split
  · split
    · split
      · exact .inl ⟨rfl, rfl⟩
      · exact .inr (.rank _ _ _ _ _ _ (by simp [Stage.rank]))
      · split
        · exact .inl ⟨rfl, rfl⟩
        · split
          · exact .inr (.rank _ _ _ _ _ _ (by simp [Stage.rank]))
          · exact .inr (.left _ _ _ _ _ (length_erase_lt (by assumption)))
    · exact .inl ⟨rfl, rfl⟩
  · exact .inl ⟨rfl, rfl⟩

/-- A task that hears of the end of a part again has less to do, or nothing comes of it. -/
theorem shape_hearAgain (i : Nat) (t : Task ν ε α) :
    ((t.hearAgain i).1.shape = t.shape ∧ (t.hearAgain i).2 = []) ∨
      Shape.Follows (t.hearAgain i).1.shape t.shape := by
  unfold hearAgain
  split
  · split
    · exact .inl ⟨rfl, rfl⟩
    · exact .inr (.left _ _ _ _ _ (length_erase_lt (by assumption)))
  · exact .inl ⟨rfl, rfl⟩

/-- A part that has less to do ended only if it had not before, so a silent turn lets no join hear
anything. -/
theorem isEnded_of_shape_eq {s t : Task ν ε α} (h : s.shape = t.shape) : s.isEnded = t.isEnded := by
  cases s <;> cases t <;> simp_all [shape, isEnded, outcome?]

/-- A turn leaves less to do, or nothing comes of it. -/
theorem shape_visit (whole : List Nat) (act : Act) (path : List Nat) (t : Task ν ε α)
    (desk : Desk ν) :
    ((t.visit whole act path desk).1.shape = t.shape ∧ (t.visit whole act path desk).2.1 = []) ∨
      Shape.Follows (t.visit whole act path desk).1.shape t.shape := by
  fun_induction visit whole act path t desk with
  | case1 t desk =>
    cases act with
    | resume => exact shape_resume whole t desk
    | hear again i =>
      cases again with
      | false => exact shape_hearFirst i t
      | true => exact shape_hearAgain i t
  | case2 i path n parts stage awaited next desk h before after turns desk' eq ih =>
    rw [eq] at ih
    have same : (fun j => ((replace parts ⟨i, h⟩ after) j).shape) =
        fun j => if j = ⟨i, h⟩ then after.shape else (parts j).shape := by
      funext j
      by_cases hj : j = ⟨i, h⟩ <;> simp [replace, hj]
    rcases ih with ⟨shape, none⟩ | follows
    · refine .inl ⟨?_, ?_⟩
      · simp only [Task.shape, get_ofFn, same]
        congr 1
        funext j
        by_cases hj : j = ⟨i, h⟩
        · subst hj
          simpa using shape
        · simp [hj]
      · have := isEnded_of_shape_eq shape
        simp_all
    · refine .inr ?_
      simp only [Task.shape, get_ofFn, same]
      exact .part _ _ _ _ _ _ follows
  | case3 => exact .inl ⟨rfl, rfl⟩
  | case4 => exact .inl ⟨rfl, rfl⟩

end Task

end RangeCalc.Loop
