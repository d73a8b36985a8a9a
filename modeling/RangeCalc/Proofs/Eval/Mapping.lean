import Mathlib.Data.List.Forall2
import Mathlib.Data.Nat.Find
import RangeCalc.Proofs.Eval.Natural

/-!
# `map` in order, batch by batch

`map` has its lambda evaluated for all elements before it looks at any result. It takes one element
at a time if the body of the lambda is a leaf, and else the elements of a batch together. So a
failing element decides over whatever results there are, but only among the elements of its batch:
the batches before it have been through, and those after it are not reached.

* `batches_eq_split`: the batches before a batch, that batch, and those after it.
* `Script.Meets.each_of_failing`, `alike_each`: a series of scripts of which one never has a value.
  What comes after that one does not matter.
* `meets_mapResults_of_failing`, `alike_mapResults`: the same for the batches of a `map`, whether
  they are handed out or taken element by element.
* `mapsInBatches`: what a `map` comes to.
-/

namespace RangeCalc

open Loop Result

variable {β γ : Type}

/-! ## Batches -/

/-- The first batch, and those of the rest. -/
theorem batches_eq_cons {size : Nat} (pos : 0 < size) {items : List β} (h : items ≠ []) :
    batches size items = items.take size :: batches size (items.drop size) := by
  obtain ⟨item, items, rfl⟩ := List.exists_cons_of_ne_nil h
  obtain ⟨size, rfl⟩ := Nat.exists_eq_succ_of_ne_zero (Nat.ne_of_gt pos)
  rw [batches, batchesFrom, batchesFrom_skip]
  rfl

/-- The first `k` batches, and those of the rest. -/
theorem batches_eq_append {size : Nat} (pos : 0 < size) (k : Nat) (items : List β) :
    batches size items =
      batches size (items.take (k * size)) ++ batches size (items.drop (k * size)) := by
  induction k generalizing items with
  | zero => simp [batches, batchesFrom]
  | succ k ih =>
    by_cases h : items = []
    · subst h
      simp [batches, batchesFrom]
    · have whole : size ≤ (k + 1) * size := Nat.le_mul_of_pos_left size k.succ_pos
      have some : items.take ((k + 1) * size) ≠ [] := by
        rw [Ne, List.take_eq_nil_iff, not_or]
        exact ⟨Nat.ne_of_gt (Nat.lt_of_lt_of_le pos whole), h⟩
      rw [batches_eq_cons pos h, ih (items.drop size), batches_eq_cons pos some, List.cons_append,
        List.take_take, Nat.min_eq_left whole, List.drop_take, List.drop_drop, Nat.succ_mul,
        Nat.add_sub_cancel, Nat.add_comm size]

/-- The batches before the `k`-th, that batch, and those after it. -/
theorem batches_eq_split {size : Nat} (pos : 0 < size) (k : Nat) {items : List β}
    (h : items.drop (k * size) ≠ []) :
    batches size items = batches size (items.take (k * size)) ++
      (items.drop (k * size)).take size :: batches size (items.drop ((k + 1) * size)) := by
  rw [batches_eq_append pos k, batches_eq_cons pos h, List.drop_drop, Nat.succ_mul]

/-- The elements of a batch are elements of the list. -/
theorem mem_of_mem_batches {size : Nat} {items batch : List β} (h : batch ∈ batches size items)
    {item : β} (mem : item ∈ batch) : item ∈ items := by
  rw [← flatten_batches size items]
  exact List.mem_flatten.2 ⟨batch, h, mem⟩

/-- The element of a list at some index is in the batch of that index. -/
theorem mem_batch_of_getElem? {size i : Nat} (pos : 0 < size) {items : List β} {x : β}
    (h : items[i]? = some x) : x ∈ (items.drop (i / size * size)).take size := by
  have position : ((items.drop (i / size * size)).take size)[i % size]? = some x := by
    rw [List.getElem?_take_of_lt (Nat.mod_lt i pos), List.getElem?_drop, Nat.div_add_mod', h]
  exact List.mem_of_getElem? position

/-- The elements up to the end of a batch are those before it and those in it. -/
theorem take_succ_mul (size k : Nat) (items : List β) :
    items.take ((k + 1) * size) = items.take (k * size) ++ (items.drop (k * size)).take size := by
  rw [Nat.succ_mul, List.take_add]

section Agreement

variable {size k : Nat} {items items' : List β}
  (agree : items'.take ((k + 1) * size) = items.take ((k + 1) * size))

include agree

/-- Lists that agree up to the end of a batch agree up to its start. -/
theorem take_of_take_succ : items'.take (k * size) = items.take (k * size) := by
  have shorter : k * size ≤ (k + 1) * size := Nat.mul_le_mul_right size k.le_succ
  have cut := congrArg (List.take (k * size)) agree
  rwa [List.take_take, List.take_take, Nat.min_eq_left shorter] at cut

/-- Lists that agree up to the end of a batch agree in it. -/
theorem batch_of_take_succ :
    (items'.drop (k * size)).take size = (items.drop (k * size)).take size := by
  have cut := congrArg (List.drop (k * size)) agree
  rwa [List.drop_take, List.drop_take, Nat.succ_mul, Nat.add_sub_cancel_left] at cut

end Agreement

/-! ## Series of scripts of which one never has a value -/

/-- A series of scripts, one of which only ends with faults, does so, too. -/
theorem Script.Meets.each_of_failing (script : β → Script Note γ) {R : Fault → Prop}
    {before after : List β} {item : β} (hbefore : ∀ b ∈ before, (script b).Meets (fun _ => True) R)
    (fails : (script item).Meets (fun _ => False) R) :
    (Script.each script (before ++ item :: after)).Meets (fun _ => False) R := by
  induction before with
  | nil => exact fails.bind fun _ => False.elim
  | cons b before ih =>
    refine (hbefore b List.mem_cons_self).bind fun _ _ => ?_
    exact (ih fun c mem => hbefore c (List.mem_cons_of_mem b mem)).bind fun _ => False.elim

/-- Two series of scripts that are alike up to one that never has a value, whatever they are after
it. -/
theorem alike_each (script script' : β → Script Note γ) {before : List β} {item : β}
    (hbefore : ∀ b ∈ before, ∀ next next', (∀ c, (next c).Alike (next' c)) →
      (script b next).Alike (script' b next'))
    (fails : ∀ next next', (script item next).Alike (script' item next')) (after after' : List β)
    (next next' : List γ → Evaluation Note) :
    (Script.each script (before ++ item :: after) next).Alike
      (Script.each script' (before ++ item :: after') next') := by
  induction before generalizing next next' with
  | nil => exact fails _ _
  | cons b before ih =>
    refine hbefore b List.mem_cons_self _ _ fun c => ?_
    exact ih (fun d mem => hbefore d (List.mem_cons_of_mem b mem)) _ _

/-- Both scripts pass a checkpoint. -/
theorem alike_tick {next next' : Unit → Evaluation Note} (h : (next ()).Alike (next' ())) :
    (Script.tick next).Alike (Script.tick next') :=
  .poll (.tick (.poll h))

/-! ## The results of a lambda -/

/-- How many elements of a sequence `map` takes at a time. -/
def Expr.mapSize (body : Expr) : Nat := if body.isLeaf then 1 else batchSize

theorem Expr.mapSize_pos (body : Expr) : 0 < body.mapSize := by
  rw [mapSize]
  split <;> decide

/-- The elements of the `k`-th batch. -/
abbrev Expr.batchAt (body : Expr) (elements : List Float) (k : Nat) : List Float :=
  (elements.drop (k * body.mapSize)).take body.mapSize

/-- What `map` does with a batch. -/
def mapBatch (apply : Float → Script Note Value) (batch : List Float) :
    Script Note (List Value) := do
  Script.tick
  let values ← Script.join batch.length fun i => apply (batch.get i)
  return List.ofFn values

/-- A batch with all its elements: they come to their values, or one of them fails for all. -/
theorem meets_mapBatch {apply : Float → Script Note Value} {batch : List Float}
    {V : Float → Value → Prop} {R : Fault → Prop} (h : ∀ y ∈ batch, (apply y).Meets (V y) R) :
    (mapBatch apply batch).Meets (fun _ => ∀ y ∈ batch, ∃ v, V y v) R := by
  refine Script.Meets.tick.bind fun _ _ => ?_
  refine (Script.Meets.join fun i => h _ (List.get_mem batch i)).bind fun values hvalues => .pure ?_
  intro y mem
  obtain ⟨i, rfl⟩ := List.get_of_mem mem
  exact ⟨values i, hvalues i⟩

/-- A batch whose elements have the same scripts is handled in the same way, as far as its elements
come to values. -/
theorem alike_mapBatch {apply apply' : Float → Script Note Value} {batch : List Float}
    (same : ∀ y ∈ batch, apply' y = apply y) {next next' : List Value → Evaluation Note}
    (h : (∀ y ∈ batch, ∃ v, (apply y .ret).Yields false (.ok v)) →
      ∀ results, (next results).Alike (next' results)) :
    (mapBatch apply batch next).Alike (mapBatch apply' batch next') := by
  refine alike_tick ?_
  have parts : (fun i => apply' (batch.get i) .ret) = fun i => apply (batch.get i) .ret :=
    funext fun i => congrFun (same _ (List.get_mem batch i)) _
  change (Action.join batch.length (fun i => apply (batch.get i) .ret) _).Alike
    (Action.join batch.length (fun i => apply' (batch.get i) .ret) _)
  rw [parts]
  refine .join fun values hvalues => h (fun y mem => ?_) _
  obtain ⟨i, rfl⟩ := List.get_of_mem mem
  exact ⟨values i, hvalues i⟩

/-- The only element of a batch of one. -/
theorem eq_append_of_mem_take_one {items : List β} {k : Nat} {x : β}
    (mem : x ∈ (items.drop (k * 1)).take 1) :
    items = items.take (k * 1) ++ x :: items.drop ((k + 1) * 1) := by
  rcases rest : items.drop (k * 1) with _ | ⟨y, others⟩ <;> rw [rest] at mem
  · exact absurd mem List.not_mem_nil
  · obtain rfl := List.mem_singleton.1 mem
    have later : items.drop ((k + 1) * 1) = others := by
      rw [Nat.succ_mul, ← List.drop_drop, rest, List.drop_one, List.tail_cons]
    rw [later, ← rest, List.take_append_drop]

section Failing

variable {body : Expr} {apply apply' : Float → Script Note Value} {elements elements' : List Float}
  {k : Nat} {x : Float} (mem : x ∈ (elements.drop (k * body.mapSize)).take body.mapSize)
  (fails : ∀ v, ¬(apply x .ret).Yields false (.ok v))

include mem fails

/-- If an element of a batch fails and none before the batch does, the results fail as an element of
the batch does. -/
theorem meets_mapResults_of_failing {R : Fault → Prop}
    (hbefore : ∀ y ∈ elements.take (k * body.mapSize), (apply y).Meets (fun _ => True) R)
    (hbatch : ∀ y ∈ (elements.drop (k * body.mapSize)).take body.mapSize,
      (apply y).Meets (fun v => (apply y .ret).Yields false (.ok v)) R) :
    (mapResults body apply elements).Meets (fun _ => False) R := by
  rw [mapResults]
  by_cases leaf : body.isLeaf
  · rw [if_pos leaf]
    rw [Expr.mapSize, if_pos leaf] at mem hbefore hbatch
    rw [eq_append_of_mem_take_one mem]
    refine .each_of_failing _ (fun y before => ?_) ?_
    · exact Script.Meets.tick.bind fun _ _ => hbefore y before
    · exact Script.Meets.tick.bind fun _ _ => (hbatch x mem).mono fails fun _ => id
  · rw [if_neg leaf]
    have size : body.mapSize = batchSize := if_neg leaf
    rw [size] at mem hbefore hbatch
    rw [batches_eq_split (size ▸ body.mapSize_pos) k
      (List.ne_nil_of_mem (List.mem_of_mem_take mem))]
    have batch : (mapBatch apply ((elements.drop (k * batchSize)).take batchSize)).Meets
        (fun _ => False) R := by
      refine (meets_mapBatch hbatch).mono (fun _ all => ?_) fun _ => id
      obtain ⟨v, hv⟩ := all x mem
      exact fails v hv
    refine (Script.Meets.each_of_failing (mapBatch apply) (fun b before => ?_)
      batch).bind fun _ => False.elim
    exact (meets_mapBatch fun y inside => hbefore y (mem_of_mem_batches before inside)).mono
      (fun _ _ => trivial) fun _ => id

/-- If an element of a batch fails, later batches do not matter, nor does the lambda on them. -/
theorem alike_mapResults (natural : ∀ y, (apply y).Natural)
    (agree : elements'.take ((k + 1) * body.mapSize) = elements.take ((k + 1) * body.mapSize))
    (same : ∀ y ∈ elements.take ((k + 1) * body.mapSize), apply' y = apply y)
    (next next' : List Value → Evaluation Note) :
    (mapResults body apply elements next).Alike (mapResults body apply' elements' next') := by
  have before := take_of_take_succ agree
  have batch := batch_of_take_succ agree
  rw [take_succ_mul] at same
  have same_before := fun y inside => same y (List.mem_append_left _ inside)
  have same_batch := fun y inside => same y (List.mem_append_right _ inside)
  have mem' := batch ▸ mem
  rw [mapResults, mapResults]
  by_cases leaf : body.isLeaf
  · rw [if_pos leaf, if_pos leaf]
    rw [Expr.mapSize, if_pos leaf] at mem mem' before same_before same_batch
    rw [eq_append_of_mem_take_one mem, eq_append_of_mem_take_one mem', before]
    refine alike_each _ _ (fun y inside next next' h => ?_) (fun next next' => ?_) _ _ _ _
    · refine alike_tick ?_
      rw [same_before y inside]
      exact (natural y).alike fun v _ => h v
    · refine alike_tick ?_
      rw [same_batch x mem]
      exact (natural x).alike fun v hv => absurd hv (fails v)
  · rw [if_neg leaf, if_neg leaf]
    have size : body.mapSize = batchSize := if_neg leaf
    have pos : 0 < batchSize := size ▸ body.mapSize_pos
    rw [size] at mem mem' before batch same_before same_batch
    rw [batches_eq_split pos k (List.ne_nil_of_mem (List.mem_of_mem_take mem)),
      batches_eq_split pos k (List.ne_nil_of_mem (List.mem_of_mem_take mem')), before, batch]
    refine alike_each (mapBatch apply) (mapBatch apply')
      (fun b inside next next' h => ?_) (fun next next' => ?_) _ _ _ _
    · exact alike_mapBatch (fun y mem => same_before y (mem_of_mem_batches inside mem)) fun _ => h
    · refine alike_mapBatch same_batch fun all => ?_
      obtain ⟨v, hv⟩ := all x mem
      exact absurd hv (fails v)

end Failing

/-! ## `map` -/

/-- A lambda whose results are all integer-valued numbers. -/
theorem mapM_requireElement {body : Expr} {numbers : List Float}
    (integers : ∀ y ∈ numbers, Number.isInteger y = true) :
    (numbers.map Value.number).mapM (requireElement body) = .ok numbers := by
  induction numbers with
  | nil => rfl
  | cons y numbers ih =>
    have accepted : requireElement body (.number y) = .ok y :=
      if_pos (integers y List.mem_cons_self)
    exact mapM_cons_eq_ok.2 ⟨y, numbers, accepted,
      ih fun z mem => integers z (List.mem_cons_of_mem y mem), rfl⟩

/-- A lambda whose results are integer-valued numbers up to one that is refused. -/
theorem mapM_requireElement_of_refused {body : Expr} {numbers : List Float} {result : Value}
    {rest : List Value} {fault : Fault} (integers : ∀ y ∈ numbers, Number.isInteger y = true)
    (refused : requireElement body result = .error fault) :
    (numbers.map Value.number ++ result :: rest).mapM (requireElement body) = .error fault := by
  rw [List.mapM_append, mapM_requireElement integers, List.mapM_cons, refused]
  rfl

/-- The scope of a lambda that is called with an element. -/
abbrev lambdaScope (param : Text) (scope : Scope) (x : Float) : Scope :=
  [(param, .number x)] :: scope

/-- A `map` that has its source evaluated, and then applies a lambda to the given elements. -/
def mapOver (source : Script Note Value) (body : Expr) (apply : Float → Script Note Value)
    (elements : List Float) : Script Note Value := do
  Script.check
  let value ← source
  let _ ← Script.ofExcept (requireSequence .map value)
  evalMap body apply elements

variable {source body : Expr} {param : Text} {scope : Scope} {elements : List Float}
  {desk : Desk Note}

/-- The results of a lambda that has one for every element. -/
theorem meets_mapResults_of_values {results : List Value}
    (h : List.Forall₂ (fun x v => Run.valueOf (lambdaScope param scope x) body = .ok v) elements
      results) (R : Fault → Prop) :
    (mapResults body (fun x => body.eval (lambdaScope param scope x)) elements).Meets
      (· = results) R := by
  have values : (elements.mapM fun x => body.value (lambdaScope param scope x)) = .ok results := by
    induction h with
    | nil => rfl
    | cons here _ ih => exact mapM_cons_eq_ok.2 ⟨_, _, Expr.valueOf_eq_ok_iff.1 here, ih, rfl⟩
  refine (meets_mapResults (f := fun x => body.value (lambdaScope param scope x))
    fun x mem => ?_).mono (fun results' hresults => ?_) fun _ => id
  · obtain ⟨v, hv⟩ := exists_ok_of_mapM values mem
    exact (Expr.meets_of_valueOf_eq_ok (Expr.valueOf_eq_ok_iff.2 hv) R).mono
      (fun w hw => hw ▸ hv) fun _ => id
  · exact Except.ok.inj (hresults.symm.trans values)

/-- If the lambda fails for some element, there is a first batch with such an element. -/
theorem exists_first_batch (body : Expr) {x : Float} {stop : Stop Failure} (mem : x ∈ elements)
    (failing : Run.valueOf (lambdaScope param scope x) body = .error stop) :
    ∃ k, ∃ y ∈ body.batchAt elements k, ∃ stop,
      Run.valueOf (lambdaScope param scope y) body = .error stop ∧
        ∀ y ∈ elements.take (k * body.mapSize), ∃ v,
          Run.valueOf (lambdaScope param scope y) body = .ok v := by
  classical
  -- The batch of the first element for which the lambda fails.
  have found : ∃ (i : Nat) (y : Float) (stop : Stop Failure), elements[i]? = some y ∧
      Run.valueOf (lambdaScope param scope y) body = .error stop := by
    obtain ⟨i, hi⟩ := List.mem_iff_getElem?.1 mem
    exact ⟨i, x, stop, hi, failing⟩
  obtain ⟨y, stop, hy, failing⟩ := Nat.find_spec found
  refine ⟨Nat.find found / body.mapSize, y, mem_batch_of_getElem? body.mapSize_pos hy, stop,
    failing, fun z inside => ?_⟩
  obtain ⟨j, hj, rfl⟩ := List.mem_take_iff_getElem.1 inside
  obtain ⟨early, within⟩ := Nat.lt_min.1 hj
  have early : j < Nat.find found := Nat.lt_of_lt_of_le early (Nat.div_mul_le_self _ _)
  rcases h : Run.valueOf (lambdaScope param scope elements[j]) body with stop | v
  · exact absurd ⟨_, stop, List.getElem?_eq_getElem within, h⟩ (Nat.find_min found early)
  · exact ⟨v, rfl⟩

section

variable (hsource : Run.valueOf scope source = .ok (.sequence elements))

include hsource

/-- A `map` whose source has a value works on its elements. -/
theorem meets_map {V : Value → Prop} {R : Fault → Prop}
    (h : (evalMap body (fun x => body.eval (lambdaScope param scope x)) elements).Meets V R) :
    ((Expr.map source param body).eval scope).Meets V R := by
  refine Script.Meets.check.bind fun _ _ => ?_
  refine (Expr.meets_of_valueOf_eq_ok hsource R).bind ?_
  rintro _ rfl
  exact h

/-- If the lambda has a result for every element, the results are looked at in their order. -/
theorem outcome_map {results : List Value}
    (hresults : List.Forall₂
      (fun x v => Run.valueOf (lambdaScope param scope x) body = .ok v) elements results)
    (asked : desk.checkpoint.cancelled = false) :
    ((Expr.map source param body).report scope desk).outcome =
      .ofResult ((results.mapM (requireElement body)).map .sequence) := by
  refine Script.Meets.outcome_eq _ (meets_map hsource ?_) asked
  refine (meets_mapResults_of_values hresults _).bind ?_
  rintro results rfl
  refine (Script.Meets.ofExcept (V := fun mapped =>
    results.mapM (requireElement body) = .ok mapped) (.of_eq (fun _ => id) fun fault h => ?_)).bind
    fun mapped h => .pure ?_
  · rw [h]
    rfl
  · rw [h]
    rfl

/-- If the lambda fails for an element of a batch and for none before the batch, the fault is that
of an element of the batch. -/
theorem outcome_map_of_failing {k : Nat} {x : Float} {stop : Stop Failure}
    (mem : x ∈ (elements.drop (k * body.mapSize)).take body.mapSize)
    (failing : Run.valueOf (lambdaScope param scope x) body = .error stop)
    (before : ∀ y ∈ elements.take (k * body.mapSize),
      ∃ v, Run.valueOf (lambdaScope param scope y) body = .ok v)
    (asked : desk.checkpoint.cancelled = false) :
    ∃ y ∈ (elements.drop (k * body.mapSize)).take body.mapSize, ∃ fault,
      body.FailsWith (lambdaScope param scope y) fault ∧
        ((Expr.map source param body).report scope desk).outcome =
          .error (.error (.fault fault)) := by
  have fails : ((Expr.map source param body).eval scope).Meets (fun _ => False) (fun fault =>
      ∃ y ∈ (elements.drop (k * body.mapSize)).take body.mapSize,
        body.FailsWith (lambdaScope param scope y) fault) := by
    refine meets_map hsource ((meets_mapResults_of_failing mem
      (Expr.not_yields_of_valueOf_eq_error failing) (fun y inside => ?_) fun y inside => ?_).bind
      fun _ => False.elim)
    · obtain ⟨v, hv⟩ := before y inside
      exact (Expr.meets_of_valueOf_eq_ok hv _).mono (fun _ _ => trivial) fun _ => id
    · exact (body.meets_failsWith _).mono (fun _ => id) fun fault h => ⟨y, inside, h⟩
  rcases fails.outcome desk asked with ⟨_, ⟨⟩, _⟩ | ⟨fault, ⟨y, inside, h⟩, eq⟩
  exact ⟨y, inside, fault, h, eq⟩

/-- If the lambda fails for an element of a batch, neither the elements of later batches nor the
lambda on them matter. -/
theorem report_map_of_failing {k : Nat} {x : Float} {stop : Stop Failure}
    (mem : x ∈ (elements.drop (k * body.mapSize)).take body.mapSize)
    (failing : Run.valueOf (lambdaScope param scope x) body = .error stop)
    {apply : Float → Script Note Value} {elements' : List Float}
    (agree : elements'.take ((k + 1) * body.mapSize) = elements.take ((k + 1) * body.mapSize))
    (same : ∀ y ∈ elements.take ((k + 1) * body.mapSize),
      apply y = body.eval (lambdaScope param scope y))
    (asked : desk.checkpoint.cancelled = false) :
    run false (mapOver (source.eval scope) body apply elements' .ret) desk =
      (Expr.map source param body).report scope desk := by
  refine run_alike (.poll ((source.natural_eval scope).alike fun v hv => ?_)) asked
  obtain rfl : v = .sequence elements := Except.ok.inj
    ((Expr.value_of_yields hv).symm.trans (Expr.valueOf_eq_ok_iff.1 hsource))
  exact alike_mapResults mem (Expr.not_yields_of_valueOf_eq_error failing)
    (fun y => body.natural_eval _) agree same _ _

end

/-- What it means that `map` works in order and batch by batch, for a source with these elements. -/
structure MapsInBatches (source : Expr) (param : Text) (body : Expr) (scope : Scope)
    (elements : List Float) (desk : Desk Note) : Prop where
  /-- If the lambda returns integer-valued numbers for all elements, these are the elements of the
  new sequence. -/
  mapped : ∀ numbers : List Float,
    List.Forall₂ (fun x v => Run.valueOf (lambdaScope param scope x) body = .ok v) elements
      (numbers.map .number) →
    (∀ y ∈ numbers, Number.isInteger y = true) →
    ((Expr.map source param body).report scope desk).outcome = .ok (.sequence numbers)
  /-- If it returns something for all elements, the first result that is something else is the
  fault. -/
  refused : ∀ (numbers : List Float) (result : Value) (rest : List Value),
    List.Forall₂ (fun x v => Run.valueOf (lambdaScope param scope x) body = .ok v) elements
      (numbers.map .number ++ result :: rest) →
    (∀ y ∈ numbers, Number.isInteger y = true) →
    (result.kind ≠ .number → ((Expr.map source param body).report scope desk).outcome =
      .error (.error (.fault (.lambdaKind body result)))) ∧
    ∀ y, result = .number y → Number.isInteger y = false →
      ((Expr.map source param body).report scope desk).outcome =
        .error (.error (.fault (.lambdaFraction body y)))
  /-- If it fails for some element, there is a first batch with such an element. The fault is that
  of an element of this batch, and later batches are not reached: the evaluation is the same for all
  elements that might stand there, and for all that the lambda might do with them. -/
  failing : ∀ x ∈ elements, ∀ stop, Run.valueOf (lambdaScope param scope x) body = .error stop →
    ∃ k, (∃ y ∈ body.batchAt elements k, ∃ stop,
        Run.valueOf (lambdaScope param scope y) body = .error stop) ∧
      (∀ y ∈ elements.take (k * body.mapSize), ∃ v,
        Run.valueOf (lambdaScope param scope y) body = .ok v) ∧
      (∃ y ∈ body.batchAt elements k, ∃ fault,
        body.FailsWith (lambdaScope param scope y) fault ∧
          ((Expr.map source param body).report scope desk).outcome =
            .error (.error (.fault fault))) ∧
      ∀ (apply : Float → Script Note Value) (elements' : List Float),
        elements'.take ((k + 1) * body.mapSize) = elements.take ((k + 1) * body.mapSize) →
        (∀ y ∈ elements.take ((k + 1) * body.mapSize),
          apply y = body.eval (lambdaScope param scope y)) →
        run false (mapOver (source.eval scope) body apply elements' .ret) desk =
          (Expr.map source param body).report scope desk

/-- `map` works in order and batch by batch, over sequences of any length. -/
theorem mapsInBatches (source : Expr) (param : Text) (body : Expr) (scope : Scope)
    (elements : List Float) (hsource : Run.valueOf scope source = .ok (.sequence elements))
    (desk : Desk Note) (asked : desk.checkpoint.cancelled = false) :
    MapsInBatches source param body scope elements desk where
  mapped numbers results integers := by
    rw [outcome_map hsource results asked, mapM_requireElement integers]
    rfl
  refused numbers result rest results integers := by
    have outcome : ∀ fault, requireElement body result = .error fault →
        ((Expr.map source param body).report scope desk).outcome =
          .error (.error (.fault fault)) := by
      intro fault refused
      rw [outcome_map hsource results asked, mapM_requireElement_of_refused integers refused]
      rfl
    refine ⟨fun kind => outcome _ ?_, fun y eq fraction => outcome _ ?_⟩
    · rcases result with _ | _ | _
      · exact absurd rfl kind
      · rfl
      · rfl
    · subst eq
      exact if_neg (Bool.eq_false_iff.1 fraction)
  failing x mem stop failing := by
    obtain ⟨k, y, inside, stop, failing, before⟩ := exists_first_batch body mem failing
    exact ⟨k, ⟨y, inside, stop, failing⟩, before,
      outcome_map_of_failing hsource inside failing before asked,
      fun apply elements' agree same =>
        report_map_of_failing hsource inside failing agree same asked⟩

/-- A lambda that returns a sequence for every element is refused at the first, and one that looks
for a name without a value fails. -/
theorem mapsInBatches_of_bad_lambdas :
    let scope : Scope := [[("s", .sequence [0, 1])]]
    ((Expr.map (.ident "s") "x" (.ident "s")).report scope ⟨.start, []⟩).outcome =
        .error (.error (.fault (.lambdaKind (.ident "s") (.sequence [0, 1])))) ∧
      ∃ fault, ((Expr.map (.ident "s") "x" (.negate (.ident "y"))).report scope
        ⟨.start, []⟩).outcome = .error (.error (.fault fault)) := by
  intro scope
  have source : Run.valueOf scope (.ident "s") = .ok (.sequence [0, 1]) :=
    Expr.valueOf_ident scope "s"
  have result : ∀ x, Run.valueOf (lambdaScope "x" scope x) (.ident "s") = .ok (.sequence [0, 1]) :=
    fun x => Expr.valueOf_ident (lambdaScope "x" scope x) "s"
  have fails : Run.valueOf (lambdaScope "x" scope 0) (.negate (.ident "y")) =
      .error (.error (.fault (.undefined "y"))) := by
    rw [Run.valueOf, run, State.settle_of_isEnded rfl]
    rfl
  constructor
  · exact ((mapsInBatches _ "x" (.ident "s") scope _ source ⟨.start, []⟩ rfl).refused [] _
      [.sequence [0, 1]] (.cons (result 0) (.cons (result 1) .nil))
      (List.forall_mem_nil _)).1 (by decide)
  · obtain ⟨_, _, _, ⟨_, _, fault, _, outcome⟩, _⟩ :=
      (mapsInBatches _ "x" (.negate (.ident "y")) scope _ source ⟨.start, []⟩ rfl).failing 0
        List.mem_cons_self _ fails
    exact ⟨fault, outcome⟩

end RangeCalc
