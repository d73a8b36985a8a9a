import RangeCalc.Proofs.Loop.Progress

/-!
# Watching an action

An action can be watched: at chosen points it leaves, besides its notes, a *sight* of what it has
before it. Leaving a sight takes no turn and changes nothing, so the watched action goes through the
loop in step with the plain one, however the parts take turns, and also if it is asked to stop or
interrupted.

`Action.Watches` relates a watched action to the plain one and says in advance what is to be seen:
it has a condition on sights, one on errors and one on values, and the condition on the values of
the parts of a join is what the rest of the action may count on. So it is checked by going through
the action once, and holds of every run.

* `Desk.plain`, `Desk.sights`: a record with sights, taken apart;
* `Task.watches_visit`: a turn of the watched task and of the plain one;
* `run_watches`: the two actions come to the same, and every sight on the way is as said.
-/

namespace RangeCalc.Loop

variable {ν μ ε α : Type}

/-! ## Records with sights -/

/-- The entry, unless it is a sight. -/
def Entry.plain? : Entry (ν ⊕ μ) → Option (Entry ν)
  | .noted (.inl message) => some (.noted message)
  | .noted (.inr _) => none
  | .cancelled path => some (.cancelled path)

/-- The sight that an entry is. -/
def Entry.sight? : Entry (ν ⊕ μ) → Option μ
  | .noted (.inr sight) => some sight
  | _ => none

/-- The entry of one who watches. -/
def Entry.watched : Entry ν → Entry (ν ⊕ μ)
  | .noted message => .noted (.inl message)
  | .cancelled path => .cancelled path

namespace Desk

/-- The desk without the sights. -/
def plain (desk : Desk (ν ⊕ μ)) : Desk ν :=
  ⟨desk.checkpoint, desk.record.filterMap Entry.plain?⟩

/-- What has been seen, the last sight first. -/
def sights (desk : Desk (ν ⊕ μ)) : List μ := desk.record.filterMap Entry.sight?

/-- The desk of one who watches from now on. -/
def watched (desk : Desk ν) : Desk (ν ⊕ μ) := ⟨desk.checkpoint, desk.record.map Entry.watched⟩

/-- Every sight on the desk satisfies `S`. -/
def Shows (S : μ → Prop) (desk : Desk (ν ⊕ μ)) : Prop := ∀ sight ∈ desk.sights, S sight

theorem plain_watched (desk : Desk ν) : (desk.watched : Desk (ν ⊕ μ)).plain = desk := by
  have same : (Entry.plain? ∘ (Entry.watched : Entry ν → Entry (ν ⊕ μ))) = some := by
    funext entry
    cases entry <;> rfl
  rw [plain, watched, List.filterMap_map, same, List.filterMap_some]

theorem shows_watched (S : μ → Prop) (desk : Desk ν) : (desk.watched : Desk (ν ⊕ μ)).Shows S := by
  intro sight mem
  obtain ⟨entry, mem, found⟩ := List.mem_filterMap.1 mem
  obtain ⟨entry, -, rfl⟩ := List.mem_map.1 mem
  cases entry <;> cases found

variable {S : μ → Prop} {desk : Desk (ν ⊕ μ)}

theorem Shows.write (h : desk.Shows S) {entry : Entry (ν ⊕ μ)}
    (seen : ∀ sight, entry.sight? = some sight → S sight) : (desk.write entry).Shows S := by
  intro sight mem
  obtain ⟨entry', mem, found⟩ := List.mem_filterMap.1 mem
  rcases List.mem_cons.1 mem with rfl | mem
  · exact seen sight found
  · exact h sight (List.mem_filterMap.2 ⟨entry', mem, found⟩)

theorem Shows.pass (h : desk.Shows S) : desk.pass.Shows S := h

end Desk

/-! ## Watched actions -/

/-- An outcome is a value with `V`, an error with `R`, or comes from being stopped from outside. -/
def Outcome.Within (V : α → Prop) (R : ε → Prop) : Outcome ε α → Prop
  | .ok value => V value
  | .error (.error error) => R error
  | .error .cancelled => True

/-- An action with sights that satisfy `S`, next to the plain one. It ends with a value with `V` or
an error with `R`, if it is not stopped. -/
inductive Action.Watches (S : μ → Prop) (R : ε → Prop) :
    (α → Prop) → Action (ν ⊕ μ) ε α → Action ν ε α → Prop
  | ret {V : α → Prop} {value : α} : V value → Watches S R V (.ret value) (.ret value)
  | fail {V : α → Prop} {error : ε} : R error → Watches S R V (.fail error) (.fail error)
  | note {V : α → Prop} {message : ν} {next : Unit → Action (ν ⊕ μ) ε α}
      {next' : Unit → Action ν ε α} :
      Watches S R V (next ()) (next' ()) →
      Watches S R V (.note (.inl message) next) (.note message next')
  | see {V : α → Prop} {sight : μ} {next : Unit → Action (ν ⊕ μ) ε α} {action : Action ν ε α} :
      S sight → Watches S R V (next ()) action → Watches S R V (.note (.inr sight) next) action
  | poll {V : α → Prop} {next : Bool → Action (ν ⊕ μ) ε α} {next' : Bool → Action ν ε α} :
      (∀ asked, Watches S R V (next asked) (next' asked)) → Watches S R V (.poll next) (.poll next')
  | tick {V : α → Prop} {next : Unit → Action (ν ⊕ μ) ε α} {next' : Unit → Action ν ε α} :
      Watches S R V (next ()) (next' ()) → Watches S R V (.tick next) (.tick next')
  | join {V : α → Prop} {n : Nat} {part : Fin n → Action (ν ⊕ μ) ε α} {part' : Fin n → Action ν ε α}
      {next : (Fin n → α) → Action (ν ⊕ μ) ε α} {next' : (Fin n → α) → Action ν ε α}
      (Q : Fin n → α → Prop) :
      (∀ i, Watches S R (Q i) (part i) (part' i)) →
      (∀ values, (∀ i, Q i (values i)) → Watches S R V (next values) (next' values)) →
      Watches S R V (.join n part next) (.join n part' next')

/-- The points where a watched action and the plain one have to wait. -/
inductive Halt.Watches (S : μ → Prop) (R : ε → Prop) (V : α → Prop) :
    Halt (ν ⊕ μ) ε α → Halt ν ε α → Prop
  | ended {outcome : Outcome ε α} :
      outcome.Within V R → Watches S R V (.ended outcome) (.ended outcome)
  | paused {rest : Action (ν ⊕ μ) ε α} {rest' : Action ν ε α} :
      rest.Watches S R V rest' → Watches S R V (.paused rest) (.paused rest')
  | forked {n : Nat} {part : Fin n → Action (ν ⊕ μ) ε α} {part' : Fin n → Action ν ε α}
      {next : (Fin n → α) → Action (ν ⊕ μ) ε α} {next' : (Fin n → α) → Action ν ε α}
      (Q : Fin n → α → Prop) :
      (∀ i, (part i).Watches S R (Q i) (part' i)) →
      (∀ values, (∀ i, Q i (values i)) → (next values).Watches S R V (next' values)) →
      Watches S R V (.forked n part next) (.forked n part' next')

variable {S : μ → Prop} {R : ε → Prop} {V : α → Prop}

/-- A watched action and the plain one have to wait at the same point. -/
theorem Action.watches_advance {action : Action (ν ⊕ μ) ε α} {action' : Action ν ε α}
    (h : action.Watches S R V action') {desk : Desk (ν ⊕ μ)} (shows : desk.Shows S) :
    (action.advance desk).1.Watches S R V (action'.advance desk.plain).1 ∧
      (action'.advance desk.plain).2 = (action.advance desk).2.plain ∧
      (action.advance desk).2.Shows S := by
  induction h generalizing desk with
  | ret h => exact ⟨.ended h, rfl, shows⟩
  | fail h => exact ⟨.ended h, rfl, shows⟩
  | note _ ih => exact ih (shows.write nofun)
  | @see V sight next action seen _ ih =>
    have shows' : (desk.write (.noted (.inr sight))).Shows S := by
      refine shows.write ?_
      rintro _ ⟨⟩
      exact seen
    exact ih shows'
  | poll _ ih => exact ih desk.checkpoint.cancelled shows
  | @tick V next next' h ih =>
    have due : desk.plain.pass.checkpoint.isDue = desk.pass.checkpoint.isDue := rfl
    rw [advance, advance, due]
    split
    · exact ⟨.paused h, rfl, shows⟩
    · exact ih shows.pass
  | @join V n part part' next next' Q parts go _ ih =>
    cases n with
    | zero => exact ih _ (fun i => i.elim0) shows
    | succ n => exact ⟨.forked Q parts go, rfl, shows⟩

/-! ## Watched tasks -/

/-- What has decided a join satisfies the condition on errors. -/
def Stage.Within (R : ε → Prop) : Stage ε → Prop
  | .gathering _ => True
  | .settled stop => ∀ error, stop = some (.error error) → R error
  | .draining stop => ∀ error, stop = .error error → R error

/-- A task of a watched action, next to that of the plain one. -/
inductive Task.Watches (S : μ → Prop) (R : ε → Prop) :
    (α → Prop) → Task (ν ⊕ μ) ε α → Task ν ε α → Prop
  | ready {V : α → Prop} {action : Action (ν ⊕ μ) ε α} {action' : Action ν ε α} (stopped : Bool) :
      action.Watches S R V action' → Watches S R V (.ready stopped action) (.ready stopped action')
  | ended {V : α → Prop} {outcome : Outcome ε α} :
      outcome.Within V R → Watches S R V (.ended outcome) (.ended outcome)
  | joined {V : α → Prop} {n : Nat} {parts : Fin n → Task (ν ⊕ μ) ε α} {parts' : Fin n → Task ν ε α}
      {stage : Stage ε} {awaited : List Nat} {next : (Fin n → α) → Action (ν ⊕ μ) ε α}
      {next' : (Fin n → α) → Action ν ε α} (Q : Fin n → α → Prop) :
      (∀ i, Watches S R (Q i) (parts i) (parts' i)) →
      (∀ values, (∀ i, Q i (values i)) → (next values).Watches S R V (next' values)) →
      stage.Within R →
      Watches S R V (.joined n parts stage awaited next) (.joined n parts' stage awaited next')

/-- What comes of a turn of a watched task, next to what comes of that of the plain one. -/
structure TurnWatches (S : μ → Prop) (R : ε → Prop) (V : α → Prop)
    (result : Task (ν ⊕ μ) ε α × List Turn × Desk (ν ⊕ μ))
    (result' : Task ν ε α × List Turn × Desk ν) : Prop where
  task : result.1.Watches S R V result'.1
  turns : result'.2.1 = result.2.1
  desk : result'.2.2 = result.2.2.plain
  shows : result.2.2.Shows S

namespace Task

variable {t : Task (ν ⊕ μ) ε α} {t' : Task ν ε α} {desk : Desk (ν ⊕ μ)}

theorem Watches.outcome?_eq (h : t.Watches S R V t') : t'.outcome? = t.outcome? := by
  cases h <;> rfl

theorem Watches.isEnded_eq (h : t.Watches S R V t') : t'.isEnded = t.isEnded := by
  cases h <;> rfl

theorem Watches.value?_eq (h : t.Watches S R V t') : t'.value? = t.value? := by
  cases h with
  | ready | joined => rfl
  | @ended _ outcome _ => cases outcome <;> rfl

/-- The outcome of a watched task is as said. -/
theorem Watches.within (h : t.Watches S R V t') {outcome : Outcome ε α}
    (ended : t.outcome? = some outcome) : outcome.Within V R := by
  cases h with
  | ready | joined => cases ended
  | ended within =>
    cases ended
    exact within

theorem Watches.of_value? (h : t.Watches S R V t') {value : α} (ended : t.value? = some value) :
    V value := by
  cases h with
  | ready | joined => cases ended
  | @ended _ outcome within =>
    cases outcome with
    | ok v =>
      cases ended
      exact within
    | error stop => cases ended

/-- Both tasks can be asked to stop. -/
theorem watches_cancel (h : t.Watches S R V t') : t.cancel.Watches S R V t'.cancel := by
  induction h with
  | ready stopped h => exact .ready true h
  | ended h => exact .ended h
  | @joined V n parts parts' stage awaited next next' Q hparts go within ih =>
    have ended : (∀ i, (parts' i).isEnded = true) ↔ ∀ i, (parts i).isEnded = true :=
      forall_congr' fun i => by rw [(hparts i).isEnded_eq]
    cases stage with
    | gathering stopped =>
      simp only [cancel, ended, get_ofFn]
      split
      · exact .joined Q hparts go trivial
      · exact .joined Q ih go trivial
    | settled stop =>
      refine .joined Q hparts go fun error eq => ?_
      cases eq
    | draining stop =>
      simp only [cancel, get_ofFn]
      refine .joined Q ih go fun error eq => ?_
      cases eq

/-- Both tasks start. -/
theorem watches_start {action : Action (ν ⊕ μ) ε α} {action' : Action ν ε α}
    (h : action.Watches S R V action') (stopped : Bool) (shows : desk.Shows S) :
    TurnWatches S R V (start stopped action desk) (start stopped action' desk.plain) := by
  obtain ⟨halts, same, shows⟩ := Action.watches_advance h shows
  rw [start_eq, start_eq]
  generalize (action.advance desk).1 = halt at halts
  generalize (action'.advance desk.plain).1 = halt' at halts
  cases halts with
  | ended h => exact ⟨.ended h, rfl, same, shows⟩
  | paused h => exact ⟨.ready stopped h, rfl, same, shows⟩
  | forked Q parts go =>
    exact ⟨.joined Q (fun i => .ready stopped (parts i)) go trivial, rfl, same, shows⟩

/-- Both tasks end without a value. -/
theorem watches_stopAt (path : List Nat) {stop : Stop ε}
    (h : ∀ error, stop = .error error → R error) (shows : desk.Shows S) :
    TurnWatches S R V (stopAt path stop desk) (stopAt path stop desk.plain) := by
  cases stop with
  | error error => exact ⟨.ended (h error rfl), rfl, rfl, shows⟩
  | cancelled => exact ⟨.ended trivial, rfl, rfl, shows.write nofun⟩

/-- Both tasks go on. -/
theorem watches_resume (path : List Nat) (h : t.Watches S R V t') (shows : desk.Shows S) :
    TurnWatches S R V (t.resume path desk) (t'.resume path desk.plain) := by
  cases h with
  | ended h => exact ⟨.ended h, rfl, rfl, shows⟩
  | ready stopped h =>
    cases stopped with
    | true => exact watches_stopAt path nofun shows
    | false => exact watches_start h false shows
  | @joined _ n parts parts' stage awaited next next' Q hparts go within =>
    cases stage with
    | gathering stopped => exact ⟨.joined Q hparts go trivial, rfl, rfl, shows⟩
    | settled stop =>
      cases stop with
      | none =>
        -- Both joins pick up the same values from their parts.
        have values : ∀ i, (parts' i).value? = (parts i).value? := fun i => (hparts i).value?_eq
        simp only [resume, values]
        split
        · rename_i some
          refine watches_start (go _ fun i => ?_) false shows
          exact (hparts i).of_value? (Option.some_get (some i)).symm
        · exact watches_stopAt path nofun shows
      | some stop =>
        have ended : endedParts parts' = endedParts parts := by
          simp only [endedParts, (hparts _).isEnded_eq]
        simp only [resume, ended, get_ofFn]
        refine ⟨.joined Q (fun i => watches_cancel (hparts i)) go ?_, rfl, rfl, shows⟩
        exact fun error eq => within error (congrArg some eq)
    | draining stop =>
      simp only [resume]
      split
      · exact watches_stopAt path within shows
      · exact ⟨.joined Q hparts go within, rfl, rfl, shows⟩

/-- Both tasks hear of the end of a part for the first time. -/
theorem watches_hearFirst (i : Nat) (h : t.Watches S R V t') :
    (t.hearFirst i).1.Watches S R V (t'.hearFirst i).1 ∧
      (t'.hearFirst i).2 = (t.hearFirst i).2 := by
  cases h with
  | ended h => exact ⟨.ended h, rfl⟩
  | ready stopped h => exact ⟨.ready stopped h, rfl⟩
  | @joined _ n parts parts' stage awaited next next' Q hparts go within =>
    cases stage with
    | settled stop => exact ⟨.joined Q hparts go within, rfl⟩
    | draining stop => exact ⟨.joined Q hparts go within, rfl⟩
    | gathering stopped =>
      rw [hearFirst, hearFirst]
      by_cases lt : i < n
      · rw [dif_pos lt, dif_pos lt, (hparts ⟨i, lt⟩).outcome?_eq]
        cases outcome : (parts ⟨i, lt⟩).outcome? with
        | none => exact ⟨.joined Q hparts go within, rfl⟩
        | some outcome' =>
          cases outcome' with
          | error stop =>
            refine ⟨.joined Q hparts go fun error eq => ?_, rfl⟩
            have failed := (hparts ⟨i, lt⟩).within outcome
            cases stopped with
            | true => cases eq
            | false =>
              cases eq
              exact failed
          | ok value =>
            simp only
            split
            · exact ⟨.joined Q hparts go within, rfl⟩
            · split
              · refine ⟨.joined Q hparts go fun error eq => ?_, rfl⟩
                cases stopped <;> cases eq
              · exact ⟨.joined Q hparts go within, rfl⟩
      · rw [dif_neg lt, dif_neg lt]
        exact ⟨.joined Q hparts go within, rfl⟩

/-- Both tasks hear of the end of a part again. -/
theorem watches_hearAgain (i : Nat) (h : t.Watches S R V t') :
    (t.hearAgain i).1.Watches S R V (t'.hearAgain i).1 ∧
      (t'.hearAgain i).2 = (t.hearAgain i).2 := by
  cases h with
  | ended h => exact ⟨.ended h, rfl⟩
  | ready stopped h => exact ⟨.ready stopped h, rfl⟩
  | joined Q hparts go within =>
    rename_i stage _ _ _
    cases stage with
    | gathering stopped => exact ⟨.joined Q hparts go within, rfl⟩
    | settled stop => exact ⟨.joined Q hparts go within, rfl⟩
    | draining stop =>
      rw [hearAgain, hearAgain]
      split
      · exact ⟨.joined Q hparts go within, rfl⟩
      · exact ⟨.joined Q hparts go within, rfl⟩

/-- Both tasks have a turn, be it their own or that of a part. -/
theorem watches_visit (whole : List Nat) (act : Act) (path : List Nat) (h : t.Watches S R V t')
    (shows : desk.Shows S) :
    TurnWatches S R V (t.visit whole act path desk) (t'.visit whole act path desk.plain) := by
  induction path generalizing t t' V with
  | nil =>
    cases act with
    | resume => exact watches_resume whole h shows
    | hear again i =>
      cases again with
      | false =>
        obtain ⟨task, turns⟩ := watches_hearFirst i h
        exact ⟨task, turns, rfl, shows⟩
      | true =>
        obtain ⟨task, turns⟩ := watches_hearAgain i h
        exact ⟨task, turns, rfl, shows⟩
  | cons i path ih =>
    cases h with
    | ended h => exact ⟨.ended h, rfl, rfl, shows⟩
    | ready stopped h => exact ⟨.ready stopped h, rfl, rfl, shows⟩
    | @joined _ n parts parts' stage awaited next next' Q hparts go within =>
      rw [visit, visit]
      by_cases lt : i < n
      · rw [dif_pos lt, dif_pos lt]
        -- The part that has its turn changes in both, and the others stay as they are.
        have part := ih (hparts ⟨i, lt⟩)
        refine ⟨?_, ?_, part.desk, part.shows⟩
        · simp only [get_ofFn]
          refine .joined Q (fun j => ?_) go within
          by_cases eq : j = ⟨i, lt⟩
          · subst eq
            rw [replace, replace, if_pos rfl, if_pos rfl]
            exact part.task
          · rw [replace, replace, if_neg eq, if_neg eq]
            exact hparts j
        · simp only [part.turns, part.task.isEnded_eq, (hparts ⟨i, lt⟩).isEnded_eq]
      · rw [dif_neg lt, dif_neg lt]
        exact ⟨.joined Q hparts go within, rfl, rfl, shows⟩

end Task

/-! ## The loop -/

/-- The loop with a watched action, next to that with the plain one. -/
structure State.Watches (S : μ → Prop) (R : ε → Prop) (V : α → Prop) (s : State (ν ⊕ μ) ε α)
    (s' : State ν ε α) : Prop where
  task : s.task.Watches S R V s'.task
  queue : s'.queue = s.queue
  desk : s'.desk = s.desk.plain
  shows : s.desk.Shows S

theorem State.watches_serve {s : State (ν ⊕ μ) ε α} {s' : State ν ε α} (h : s.Watches S R V s')
    (turn : Turn) (rest : Fifo Turn) : (s.serve turn rest).Watches S R V (s'.serve turn rest) := by
  have visited := Task.watches_visit turn.path turn.act turn.path h.task h.shows
  rw [← h.desk] at visited
  exact ⟨visited.task, congrArg rest.pushAll visited.turns, visited.desk, visited.shows⟩

/-- The two loops serve the same turns. -/
theorem State.watches_settle {s : State (ν ⊕ μ) ε α} {s' : State ν ε α} (h : s.Watches S R V s') :
    s.settle.Watches S R V s'.settle := by
  fun_induction settle s' generalizing s with
  | case1 s' ended =>
    rw [h.task.isEnded_eq] at ended
    rwa [settle_of_isEnded ended]
  | case2 s' live none =>
    rw [h.queue] at none
    rwa [settle_of_none none]
  | case3 s' live turn rest pop ih =>
    rw [h.task.isEnded_eq] at live
    rw [h.queue] at pop
    rw [settle_of_pop live pop]
    exact ih (watches_serve h turn rest)

/-- The report of a run without the sights. -/
def Report.plain (report : Report (ν ⊕ μ) ε α) : Report ν ε α :=
  ⟨report.outcome, report.desk.plain, report.interrupted⟩

/-- A watched action comes to what the plain one comes to, and every sight on the way is as said. -/
theorem run_watches {action : Action (ν ⊕ μ) ε α} {action' : Action ν ε α}
    (h : action.Watches S R V action') (interrupted : Bool) {desk : Desk (ν ⊕ μ)}
    (shows : desk.Shows S) :
    (run interrupted action desk).plain = run interrupted action' desk.plain ∧
      (run interrupted action desk).desk.Shows S ∧
      (run interrupted action desk).outcome.Within V R := by
  have started := Task.watches_start h interrupted shows
  have first : (begin interrupted action desk).Watches S R V
      (begin interrupted action' desk.plain) :=
    ⟨started.task, congrArg Fifo.ofList started.turns, started.desk, started.shows⟩
  have last := State.watches_settle first
  refine ⟨?_, last.shows, ?_⟩
  · simp only [Report.plain, run, last.task.outcome?_eq, last.desk, first.task.isEnded_eq]
  · rw [run]
    cases outcome : (begin interrupted action desk).settle.task.outcome? with
    | none => exact trivial
    | some outcome' => exact last.task.within outcome

end RangeCalc.Loop
