import Mathlib.Data.List.Forall2
import RangeCalc.Eval
import RangeCalc.Proofs.Eval.Script
import RangeCalc.Proofs.Loop.Watching

/-!
# Watching an evaluation

The evaluation of an expression, watched: it lets be seen every value that an expression comes to,
every scope in which the body of a lambda is evaluated, every value that is negated, every operator
that is applied and every sequence that is reduced. Apart from that it is the evaluation of
`Expr.eval`, step by step.

* `Expr.watch`: the watched evaluation;
* `Script.Watches`: a watched script next to the plain one, with conditions on what is to be seen
  and on what comes of it. The rules follow the way scripts are put together.
-/

namespace RangeCalc

open Loop

/-- What one who watches an evaluation gets to see. -/
inductive Sight
  /-- An expression has come to a value. -/
  | returned (value : Value)
  /-- The body of a lambda is about to be evaluated in a scope. -/
  | entered (scope : Scope)
  /-- A value is about to be negated. -/
  | negated (value : Value)
  /-- An operator is about to be applied. -/
  | applied (op : Text) (left right : Value)
  /-- A sequence is about to be reduced. -/
  | reduced (elements : List Float)

/-- What a watched evaluation notes. -/
abbrev Watched := Note ⊕ Sight

/-! ## The watched evaluation -/

namespace Script

/-- Lets something be seen. -/
def see (sight : Sight) : Script Watched Unit := note (.inr sight)

/-- Lets things be seen one after the other. -/
def seeAll : List Sight → Script Watched Unit
  | [] => pure ()
  | sight :: sights => do
    see sight
    seeAll sights

/-- Gives the value that an expression has come to, and lets it be seen. -/
def returning (value : Value) : Script Watched Value := do
  see (.returned value)
  return value

end Script

/-- What is to be seen of an operand when a plan is made: the value of a leaf. -/
def Operand.sights : Operand Watched → List Sight
  | leaf (.ok value) => [.returned value]
  | _ => []

/-- Applies the operators of a chain from the left, each of them in sight. -/
def watchSteps : Value → List (Text × Value) → Script Watched Value
  | left, [] => pure left
  | left, (op, right) :: steps => do
    Script.see (.applied op left right)
    let value ← Script.ofExcept (applyOperator op left right)
    watchSteps value steps

/-- Evaluates a chain of operations, in sight. -/
def watchChain (first : Operand Watched) : List (Text × Operand Watched) → Script Watched Value
  | [] => do
    Script.seeAll first.sights
    first.script
  | steps => do
    Script.check
    Script.seeAll (first.sights ++ steps.flatMap (·.2.sights))
    let plan ← Script.ofExcept (first.planChain steps)
    let (value, values) ← plan.run
    let value ← watchSteps value values
    Script.returning value

/-- Evaluates two operands together, in sight. -/
def watchPair (a b : Operand Watched) : Script Watched (Value × Value) := do
  Script.seeAll (a.sights ++ b.sights)
  evalPair a b

/-- Combines a neutral element and the elements of a sequence, in sight. -/
def watchReduce (body : Expr) (merging : Bool) (apply : Value → Value → Script Watched Value)
    (neutral : Float) (elements : List Float) : Script Watched Value := do
  Script.see (.reduced elements)
  Script.note (.inl ⟨elements.length, merging, body⟩)
  if merging then (MergeTree.balanced neutral elements).combine apply
  else foldElements apply (.number neutral) elements

/-- Evaluates an expression that is the first operand of a chain, in sight. -/
def Expr.watchFirst : Expr → Scope → List (Text × Operand Watched) → Script Watched Value
  | number value, _, steps => watchChain (.leaf (.ok (.number value))) steps
  | ident name, scope, steps => watchChain (.leaf (scope.get name)) steps
  | binary left op right, scope, steps =>
    left.watchFirst scope ((op, .ofExpr right scope (right.watchFirst scope [])) :: steps)
  | negate operand, scope, steps =>
    watchChain (.compound do
      Script.check
      let value ← operand.watchFirst scope []
      Script.see (.negated value)
      Script.returning value.negate) steps
  | range first last, scope, steps =>
    watchChain (.compound do
      Script.check
      let (a, b) ← watchPair (.ofExpr first scope (first.watchFirst scope []))
        (.ofExpr last scope (last.watchFirst scope []))
      let value ← Script.ofExcept (rangeBetween a b)
      Script.returning value) steps
  | map source param body, scope, steps =>
    watchChain (.compound do
      Script.check
      let value ← source.watchFirst scope []
      let elements ← Script.ofExcept (requireSequence .map value)
      let mapped ← evalMap body (fun element => do
        Script.see (.entered ([(param, .number element)] :: scope))
        body.watchFirst ([(param, .number element)] :: scope) []) elements
      Script.returning mapped) steps
  | reduce source neutral param₁ param₂ body, scope, steps =>
    watchChain (.compound do
      Script.check
      let (s, n) ← watchPair (.ofExpr source scope (source.watchFirst scope []))
        (.ofExpr neutral scope (neutral.watchFirst scope []))
      let elements ← Script.ofExcept (requireSequence .reduce s)
      let start ← Script.ofExcept (requireNeutral n)
      let value ← watchReduce body (body.isMerging param₁ param₂)
        (callLambda body param₁ param₂ scope fun inner => do
          Script.see (.entered inner)
          body.watchFirst inner []) start elements
      Script.returning value) steps

/-- Evaluates an expression in a scope, in sight. -/
def Expr.watch (e : Expr) (scope : Scope) : Script Watched Value := e.watchFirst scope []

/-! ## Watched scripts and plain ones -/

/-- An evaluation ends because it is asked to stop, or with a fault with `R`. -/
def Failure.Within (R : Fault → Prop) : Failure → Prop
  | .fault reason => R reason
  | .stopped => True

variable {S : Sight → Prop} {R : Fault → Prop} {β γ : Type} {V : β → Prop} {W : γ → Prop}

/-- A watched script next to the plain one. It lets nothing be seen but what satisfies `S`, and
gives a value with `V` or ends with a fault with `R`. -/
def Script.Watches (S : Sight → Prop) (R : Fault → Prop) (V : β → Prop) (script : Script Watched β)
    (script' : Script Note β) : Prop :=
  ∀ (W : Value → Prop) next next',
    (∀ b, V b → (next b).Watches S (Failure.Within R) W (next' b)) →
    (script next).Watches S (Failure.Within R) W (script' next')

namespace Script.Watches

theorem mono {V' : β → Prop} {script : Script Watched β} {script' : Script Note β}
    (h : script.Watches S R V script') (le : ∀ b, V b → V' b) : script.Watches S R V' script' :=
  fun W _ _ later => h W _ _ fun b hb => later b (le b hb)

theorem pure {b : β} (h : V b) : (Pure.pure b : Script Watched β).Watches S R V (Pure.pure b) :=
  fun _ _ _ later => later b h

/-- A script after another. -/
theorem bind {script : Script Watched β} {script' : Script Note β} {f : β → Script Watched γ}
    {f' : β → Script Note γ} (h : script.Watches S R V script')
    (hf : ∀ b, V b → (f b).Watches S R W (f' b)) : (script >>= f).Watches S R W (script' >>= f') :=
  fun X _ _ later => h X _ _ fun b hb => hf b hb X _ _ later

theorem ofExcept {result : Except Fault β} (h : Within V R result) :
    (Script.ofExcept result).Watches S R V (Script.ofExcept result) := by
  cases result with
  | ok b => exact pure h
  | error fault => exact fun _ _ _ _ => .fail h

theorem check : Script.check.Watches S R (fun _ => True) Script.check := by
  refine fun _ _ _ later => .poll fun asked => ?_
  cases asked with
  | true => exact .fail trivial
  | false => exact later () trivial

theorem tick : Script.tick.Watches S R (fun _ => True) Script.tick := by
  have pass : Script.Watches S R (fun _ => True) (fun next => .tick fun _ => next ())
      (fun next => .tick fun _ => next ()) :=
    fun _ _ _ later => .tick (later () trivial)
  exact check.bind fun _ _ => pass.bind fun _ _ => check

theorem note (message : Note) :
    (Script.note (.inl message)).Watches S R (fun _ => True) (Script.note message) :=
  fun _ _ _ later => .note (later () trivial)

/-- A sight in front of a watched script. -/
theorem see {sight : Sight} {script : Script Watched β} {script' : Script Note β} (seen : S sight)
    (h : script.Watches S R V script') :
    (do Script.see sight; script).Watches S R V script' :=
  fun W _ _ later => .see seen (h W _ _ later)

/-- Sights in front of a watched script. -/
theorem seeAll {sights : List Sight} {script : Script Watched β} {script' : Script Note β}
    (seen : ∀ sight ∈ sights, S sight) (h : script.Watches S R V script') :
    (do Script.seeAll sights; script).Watches S R V script' := by
  induction sights with
  | nil => exact h
  | cons sight sights ih =>
    obtain ⟨first, others⟩ := List.forall_mem_cons.1 seen
    exact see first (ih others)

/-- A value that an expression has come to. -/
theorem returning {V : Value → Prop} {value : Value} (seen : S (.returned value)) (h : V value) :
    (Script.returning value).Watches S R V (Pure.pure value) :=
  see seen (pure h)

/-- Parts that are handed out. -/
theorem join {n : Nat} {part : Fin n → Script Watched Value} {part' : Fin n → Script Note Value}
    {V : Fin n → Value → Prop} (h : ∀ i, (part i).Watches S R (V i) (part' i)) :
    (Script.join n part).Watches S R (fun values => ∀ i, V i (values i)) (Script.join n part') :=
  fun _ _ _ later => .join V (fun i => h i (V i) _ _ fun _ => .ret) later

/-- A script for every item. -/
theorem each {script : β → Script Watched γ} {script' : β → Script Note γ} {P : β → γ → Prop}
    {items : List β} (h : ∀ item ∈ items, (script item).Watches S R (P item) (script' item)) :
    (Script.each script items).Watches S R (List.Forall₂ P items) (Script.each script' items) := by
  induction items with
  | nil => exact pure .nil
  | cons item items ih =>
    obtain ⟨first, others⟩ := List.forall_mem_cons.1 h
    exact first.bind fun c hc => (ih others).bind fun cs hcs => pure (.cons hc hcs)

end Script.Watches

/-! ## Plans and operands -/

/-- A plan with watched scripts next to the plain one. -/
inductive Plan.Watches (S : Sight → Prop) (R : Fault → Prop) (V : β → Prop) :
    Plan Watched β → Plan Note β → Prop
  | mk {n : Nat} {part : Fin n → Script Watched Value} {part' : Fin n → Script Note Value}
      {build : (Fin n → Value) → β} (Q : Fin n → Value → Prop)
      (parts : ∀ i, (part i).Watches S R (Q i) (part' i))
      (builds : ∀ values, (∀ i, Q i (values i)) → V (build values)) :
      Watches S R V ⟨n, part, build⟩ ⟨n, part', build⟩

namespace Plan.Watches

theorem mono {V' : β → Prop} {p : Plan Watched β} {p' : Plan Note β} (h : p.Watches S R V p')
    (le : ∀ b, V b → V' b) : p.Watches S R V' p' := by
  cases h with
  | mk Q parts builds => exact ⟨Q, parts, fun values hvalues => le _ (builds values hvalues)⟩

theorem done {b : β} (h : V b) : (Plan.done b).Watches S R V (Plan.done b) :=
  ⟨nofun, nofun, fun _ _ => h⟩

theorem single {V : Value → Prop} {script : Script Watched Value} {script' : Script Note Value}
    (h : script.Watches S R V script') : (Plan.single script).Watches S R V (Plan.single script') :=
  ⟨fun _ => V, fun _ => h, fun _ hvalues => hvalues (0 : Fin 1)⟩

theorem both {p : Plan Watched β} {p' : Plan Note β} {q : Plan Watched γ} {q' : Plan Note γ}
    (hp : p.Watches S R V p') (hq : q.Watches S R W q') :
    (p.both q).Watches S R (fun b => V b.1 ∧ W b.2) (p'.both q') := by
  cases hp with
  | @mk n part part' build P parts builds =>
    cases hq with
    | @mk m part₂ part₂' build₂ Q parts₂ builds₂ =>
      refine ⟨Fin.addCases P Q, fun i => ?_, fun values hvalues => ⟨?_, ?_⟩⟩
      · refine Fin.addCases (fun i => ?_) (fun i => ?_) i
        · simpa only [Fin.addCases_left] using parts i
        · simpa only [Fin.addCases_right] using parts₂ i
      · refine builds _ fun i => ?_
        simpa only [Fin.addCases_left] using hvalues (i.castAdd m)
      · refine builds₂ _ fun i => ?_
        simpa only [Fin.addCases_right] using hvalues (i.natAdd n)

theorem map {p : Plan Watched β} {p' : Plan Note β} {f : β → γ}
    (hp : p.Watches S R (fun b => W (f b)) p') : (p.map f).Watches S R W (p'.map f) := by
  cases hp with
  | mk Q parts builds => exact ⟨Q, parts, builds⟩

theorem run {p : Plan Watched β} {p' : Plan Note β} (hp : p.Watches S R V p') :
    p.run.Watches S R V p'.run := by
  cases hp with
  | @mk n part part' build Q parts builds =>
    match n with
    | 0 => exact .pure (builds _ nofun)
    | 1 =>
      refine (parts 0).bind fun v hv => .pure (builds _ fun i => ?_)
      obtain rfl : i = 0 := Subsingleton.elim i 0
      exact hv
    | n + 2 => exact (Script.Watches.join parts).bind fun values hvalues => .pure (builds _ hvalues)

end Plan.Watches

/-- Two plans that are made in the same way: both are there, or there is neither, for one fault. -/
inductive PlanWatches (S : Sight → Prop) (R : Fault → Prop) (V : β → Prop) :
    Except Fault (Plan Watched β) → Except Fault (Plan Note β) → Prop
  | ok {p : Plan Watched β} {p' : Plan Note β} :
      p.Watches S R V p' → PlanWatches S R V (.ok p) (.ok p')
  | error {fault : Fault} : R fault → PlanWatches S R V (.error fault) (.error fault)

/-- Plans that are carried out as soon as they are made. -/
theorem PlanWatches.run {result : Except Fault (Plan Watched β)}
    {result' : Except Fault (Plan Note β)} (h : PlanWatches S R V result result') :
    Script.Watches S R V (Script.ofExcept result >>= Plan.run)
      (Script.ofExcept result' >>= Plan.run) := by
  cases h with
  | ok h => exact h.run
  | error h => exact fun _ _ _ _ => .fail h

/-- An operand next to the plain one. -/
inductive Operand.Watches (S : Sight → Prop) (R : Fault → Prop) (V : Value → Prop) :
    Operand Watched → Operand Note → Prop
  | leaf {result : Except Fault Value} : Within (fun v => S (.returned v) ∧ V v) R result →
      Watches S R V (.leaf result) (.leaf result)
  | compound {script : Script Watched Value} {script' : Script Note Value} :
      script.Watches S R V script' → Watches S R V (.compound script) (.compound script')

/-- The operands behind the operators of a chain, next to the plain ones. -/
inductive StepsWatch (S : Sight → Prop) (R : Fault → Prop) (P : Text × Value → Prop) :
    List (Text × Operand Watched) → List (Text × Operand Note) → Prop
  | nil : StepsWatch S R P [] []
  | cons {op : Text} {o : Operand Watched} {o' : Operand Note}
      {steps : List (Text × Operand Watched)} {steps' : List (Text × Operand Note)} :
      o.Watches S R (fun v => P (op, v)) o' → StepsWatch S R P steps steps' →
      StepsWatch S R P ((op, o) :: steps) ((op, o') :: steps')

namespace Operand

variable {V W : Value → Prop} {o a b : Operand Watched} {o' a' b' : Operand Note}

theorem Watches.mono (h : o.Watches S R V o') (le : ∀ v, V v → W v) : o.Watches S R W o' := by
  cases h with
  | leaf within => exact .leaf (within.mono (fun _ hv => ⟨hv.1, le _ hv.2⟩) fun _ => id)
  | compound h => exact .compound (h.mono le)

theorem Watches.sights (h : o.Watches S R V o') : ∀ sight ∈ o.sights, S sight := by
  cases h with
  | @leaf result within =>
    cases result with
    | ok v => exact List.forall_mem_singleton.2 within.1
    | error fault => exact List.forall_mem_nil _
  | compound => exact List.forall_mem_nil _

theorem Watches.script (h : o.Watches S R V o') : o.script.Watches S R V o'.script := by
  cases h with
  | leaf within => exact .ofExcept (within.mono (fun _ h => h.2) fun _ => id)
  | compound h => exact h

theorem Watches.plan (h : o.Watches S R V o') : PlanWatches S R V o.plan o'.plan := by
  cases h with
  | @leaf result within =>
    cases result with
    | ok v => exact .ok (.done within.2)
    | error fault => exact .error within
  | compound h => exact .ok (.single h)

theorem Watches.planPair (ha : a.Watches S R V a') (hb : b.Watches S R W b') :
    PlanWatches S R (fun v => V v.1 ∧ W v.2) (a.planPair b) (a'.planPair b') := by
  rw [Operand.planPair, Operand.planPair]
  have first := ha.plan
  generalize a.plan = p, a'.plan = p' at first
  cases first with
  | error h => exact .error h
  | ok hp =>
    have second := hb.plan
    generalize b.plan = q, b'.plan = q' at second
    cases second with
    | error h => exact .error h
    | ok hq => exact .ok (hp.both hq)

variable {P : Text × Value → Prop} {steps : List (Text × Operand Watched)}
  {steps' : List (Text × Operand Note)}

theorem watches_planSteps (h : StepsWatch S R P steps steps') :
    PlanWatches S R (fun values => ∀ step ∈ values, P step) (planSteps steps)
      (planSteps steps') := by
  induction h with
  | nil => exact .ok (.done (List.forall_mem_nil _))
  | @cons op o o' steps steps' first _ ih =>
    rw [planSteps, planSteps]
    have first := first.plan
    generalize o.plan = p, o'.plan = p' at first
    cases first with
    | error h => exact .error h
    | ok hp =>
      generalize planSteps steps = q, planSteps steps' = q' at ih
      cases ih with
      | error h => exact .error h
      | ok hq =>
        refine .ok (Plan.Watches.map ((hp.both hq).mono fun values hvalues => ?_))
        exact List.forall_mem_cons.2 hvalues

theorem Watches.planChain (h : o.Watches S R V o') (hsteps : StepsWatch S R P steps steps') :
    PlanWatches S R (fun v => V v.1 ∧ ∀ step ∈ v.2, P step) (o.planChain steps)
      (o'.planChain steps') := by
  rw [Operand.planChain, Operand.planChain]
  have first := h.plan
  generalize o.plan = p, o'.plan = p' at first
  cases first with
  | error h => exact .error h
  | ok hp =>
    have others := watches_planSteps hsteps
    generalize planSteps steps = q, planSteps steps' = q' at others
    cases others with
    | error h => exact .error h
    | ok hq => exact .ok (hp.both hq)

theorem sights_of_steps (h : StepsWatch S R P steps steps') :
    ∀ sight ∈ steps.flatMap (·.2.sights), S sight := by
  induction h with
  | nil => exact List.forall_mem_nil _
  | cons first _ ih => exact List.forall_mem_append.2 ⟨first.sights, ih⟩

end Operand

/-- Two operands that are evaluated together. -/
theorem watches_pair {V W : Value → Prop} {a b : Operand Watched} {a' b' : Operand Note}
    (ha : a.Watches S R V a') (hb : b.Watches S R W b') :
    (watchPair a b).Watches S R (fun v => V v.1 ∧ W v.2) (evalPair a' b') :=
  .seeAll (List.forall_mem_append.2 ⟨ha.sights, hb.sights⟩) (ha.planPair hb).run

/-- The operators of a chain: each is in sight, and finds what those before it have come to. -/
theorem watches_steps {V : Value → Prop} {P : Text × Value → Prop} {values : List (Text × Value)}
    (step : ∀ left op right, V left → P (op, right) →
      S (.applied op left right) ∧ Within V R (applyOperator op left right))
    {first : Value} (hfirst : V first) (hvalues : ∀ value ∈ values, P value) :
    (watchSteps first values).Watches S R V (Script.ofExcept (applySteps first values)) := by
  induction values generalizing first with
  | nil => exact .pure hfirst
  | cons value values ih =>
    obtain ⟨op, right⟩ := value
    obtain ⟨here, later⟩ := List.forall_mem_cons.1 hvalues
    obtain ⟨seen, within⟩ := step first op right hfirst here
    have steps : applySteps first ((op, right) :: values) =
        applyOperator op first right >>= fun left => applySteps left values := by
      rw [applySteps, List.foldlM_cons]
      rfl
    rw [steps]
    refine .see seen ?_
    cases result : applyOperator op first right with
    | error fault =>
      rw [result] at within
      exact fun _ _ _ _ => .fail within
    | ok left =>
      rw [result] at within
      exact ih within later

/-- A chain: its operands, then its operators. -/
theorem watches_chain {V : Value → Prop} {P : Text × Value → Prop} {first : Operand Watched}
    {first' : Operand Note} {steps : List (Text × Operand Watched)}
    {steps' : List (Text × Operand Note)} (hfirst : first.Watches S R V first')
    (hsteps : StepsWatch S R P steps steps')
    (step : ∀ left op right, V left → P (op, right) →
      S (.applied op left right) ∧ Within V R (applyOperator op left right))
    (seen : ∀ v, V v → S (.returned v)) :
    (watchChain first steps).Watches S R V (evalChain first' steps') := by
  cases hsteps with
  | nil => exact .seeAll hfirst.sights hfirst.script
  | cons here later =>
    have hsteps := StepsWatch.cons here later
    refine Script.Watches.check.bind fun _ _ => ?_
    refine .seeAll (List.forall_mem_append.2 ⟨hfirst.sights, Operand.sights_of_steps hsteps⟩) ?_
    intro W next next' later'
    refine (hfirst.planChain hsteps).run W _ _ fun v hv => ?_
    exact (watches_steps step hv.1 hv.2) W _ _ fun result hresult =>
      .see (seen result hresult) (later' result hresult)

/-! ## Combinators -/

/-- The results of a lambda for all elements, in batches or not: one for each element. -/
theorem watches_mapResults {V : Value → Prop} {body : Expr} {apply : Float → Script Watched Value}
    {apply' : Float → Script Note Value} {elements : List Float}
    (h : ∀ element ∈ elements, (apply element).Watches S R V (apply' element)) :
    (mapResults body apply elements).Watches S R
      (fun results => results.length = elements.length ∧ ∀ result ∈ results, V result)
      (mapResults body apply' elements) := by
  have collected {items : List Float} {results : List Value}
      (each : List.Forall₂ (fun _ result => V result) items results) :
      results.length = items.length ∧ ∀ result ∈ results, V result := by
    induction each with
    | nil => exact ⟨rfl, List.forall_mem_nil _⟩
    | cons first _ ih =>
      exact ⟨congrArg Nat.succ ih.1, List.forall_mem_cons.2 ⟨first, ih.2⟩⟩
  rw [mapResults, mapResults]
  split
  · refine Script.Watches.mono (Script.Watches.each fun element mem => ?_) fun _ => collected
    exact Script.Watches.tick.bind fun _ _ => h element mem
  · have batch : ∀ items ∈ batches batchSize elements, Script.Watches S R
        (fun results => results.length = items.length ∧ ∀ result ∈ results, V result)
        (do
          Script.tick
          let values ← Script.join items.length fun i => apply (items.get i)
          return List.ofFn values)
        (do
          Script.tick
          let values ← Script.join items.length fun i => apply' (items.get i)
          return List.ofFn values) := by
      intro items mem
      have inside : ∀ i, items.get i ∈ elements := by
        intro i
        rw [← flatten_batches batchSize elements]
        exact List.mem_flatten.2 ⟨items, mem, List.get_mem items i⟩
      refine Script.Watches.tick.bind fun _ _ => ?_
      refine (Script.Watches.join fun i => h _ (inside i)).bind fun values hvalues => .pure ?_
      exact ⟨List.length_ofFn, fun result mem => by
        obtain ⟨i, rfl⟩ := List.mem_ofFn.1 mem
        exact hvalues i⟩
    refine (Script.Watches.each batch).bind fun results hresults => .pure ?_
    rw [← flatten_batches batchSize elements]
    generalize batches batchSize elements = groups at hresults
    induction hresults with
    | nil => exact ⟨rfl, List.forall_mem_nil _⟩
    | cons first _ ih =>
      rw [List.flatten_cons, List.flatten_cons, List.length_append, List.length_append, first.1,
        ih.1]
      exact ⟨rfl, List.forall_mem_append.2 ⟨first.2, ih.2⟩⟩

section Calls

variable {N : Value → Prop} {apply : Value → Value → Script Watched Value}
  {apply' : Value → Value → Script Note Value}
  (hcall : ∀ a b, N a → N b → (apply a b).Watches S R N (apply' a b))
  (hnumber : ∀ x, N (.number x))

include hcall hnumber

/-- A fold from the left. -/
theorem watches_foldElements {accumulated : Value} (h : N accumulated) (elements : List Float) :
    (foldElements apply accumulated elements).Watches S R N
      (foldElements apply' accumulated elements) := by
  induction elements generalizing accumulated with
  | nil => exact .pure h
  | cons element elements ih =>
    refine Script.Watches.tick.bind fun _ _ => ?_
    exact (hcall accumulated (.number element) h (hnumber element)).bind fun result => ih

/-- A merge tree, with halves that are combined in place or handed out. -/
theorem MergeTree.watches_combine (t : MergeTree) :
    (t.combine apply).Watches S R N (t.combine apply') := by
  induction t with
  | leaf value => exact Script.Watches.tick.bind fun _ _ => .pure (hnumber value)
  | node left right ihl ihr =>
    by_cases pair : ∃ a b, left = .leaf a ∧ right = .leaf b
    · obtain ⟨a, b, rfl, rfl⟩ := pair
      exact Script.Watches.tick.bind fun _ _ => hcall _ _ (hnumber a) (hnumber b)
    · rw [combine_node apply pair, combine_node apply' pair]
      refine Script.Watches.tick.bind fun _ _ => ?_
      split
      · exact ihl.bind fun a ha => ihr.bind fun b hb => hcall a b ha hb
      · exact ((Plan.Watches.single ihl).both (Plan.Watches.single ihr)).run.bind fun ⟨a, b⟩ hv =>
          hcall a b hv.1 hv.2

end Calls

end RangeCalc
