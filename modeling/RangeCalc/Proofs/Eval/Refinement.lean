import RangeCalc.Proofs.Eval.Plain
import RangeCalc.Proofs.Eval.Script

/-!
# Evaluation refines plain evaluation

The script of an expression takes chains apart along their left side, evaluates leaves first, hands
out parts and works in batches. Left alone, it nevertheless comes to what plain recursion comes to:
to the value of the expression if it has one, and otherwise to one of the faults that the expression
raises.

* `Expr.meets_eval`: the script of an expression meets its value and the faults it raises;
* `Expr.outcome_eval`: what comes of carrying the script out.
-/

namespace RangeCalc

open Loop Result

variable {R : Fault → Prop}

/-! ## Operands and chains -/

namespace Operand

/-- An operand has a value with `V`, or ends with a fault with `R`. -/
def Meets (V : Value → Prop) (R : Fault → Prop) : Operand Note → Prop
  | leaf result => Within V R result
  | compound script => script.Meets V R

variable {V W : Value → Prop} {S T : List (Text × Value) → Prop}

theorem Meets.script {o : Operand Note} (h : o.Meets V R) : o.script.Meets V R := by
  cases o with
  | leaf result => exact .ofExcept h
  | compound script => exact h

/-- The plan for an operand meets its conditions, and so does a fault met in planning. -/
theorem Meets.plan {o : Operand Note} (h : o.Meets V R) : Within (·.Meets V R) R o.plan := by
  cases o with
  | leaf result =>
    cases result with
    | ok v => exact .done h
    | error fault => exact h
  | compound script => exact .single h

theorem Meets.planPair {a b : Operand Note} (ha : a.Meets V R) (hb : b.Meets W R) :
    Within (·.Meets (fun v => V v.1 ∧ W v.2) R) R (a.planPair b) :=
  ha.plan.bind fun _ hp => hb.plan.bind fun _ hq => hp.both hq

theorem within_planSteps_cons {op : Text} {o : Operand Note} {steps : List (Text × Operand Note)}
    (ho : o.Meets V R) (hsteps : Within (·.Meets S R) R (planSteps steps))
    (hT : ∀ v values, V v → S values → T ((op, v) :: values)) :
    Within (·.Meets T R) R (planSteps ((op, o) :: steps)) := by
  refine ho.plan.bind fun p hp => hsteps.bind fun q hq => Plan.Meets.map ?_
  exact (hp.both hq).mono fun v hv => hT v.1 v.2 hv.1 hv.2

end Operand

/-- Two operands that are evaluated together. -/
theorem meets_evalPair {a b : Operand Note} {V W : Value → Prop} (ha : a.Meets V R)
    (hb : b.Meets W R) :
    (evalPair a b).Meets (fun v => V v.1 ∧ W v.2) R :=
  (Script.Meets.ofExcept (ha.planPair hb)).bind fun _ hp => hp.run

/-- A chain: its operands, then its operators. -/
theorem meets_evalChain {first : Operand Note} {steps : List (Text × Operand Note)}
    {F V : Value → Prop} {S : List (Text × Value) → Prop} (hfirst : first.Meets F R)
    (hsteps : Within (·.Meets S R) R (Operand.planSteps steps))
    (happly : ∀ v values, F v → S values → Within V R (applySteps v values)) :
    (evalChain first steps).Meets V R := by
  cases steps with
  | nil =>
    obtain ⟨Q, -, hbuild⟩ := hsteps
    exact hfirst.script.mono (fun v hv => happly v [] hv (hbuild nofun nofun)) fun _ => id
  | cons step steps =>
    -- Leaves are evaluated when the plan is made, and the fault of a leaf ends the chain there.
    refine Script.Meets.check.bind fun _ _ => ?_
    have planned :
        Within (·.Meets (fun v => F v.1 ∧ S v.2) R) R (first.planChain (step :: steps)) :=
      hfirst.plan.bind fun _ hp => hsteps.bind fun _ hq => hp.both hq
    refine (Script.Meets.ofExcept planned).bind fun p hp => hp.run.bind fun v hv => ?_
    exact .ofExcept (happly v.1 v.2 hv.1 hv.2)

/-! ## Combinators -/

/-- The results of a lambda for all elements, in batches or not, are those of each element. -/
theorem meets_mapResults {body : Expr} {apply : Float → Script Note Value}
    {f : Float → Except Fault Value} {elements : List Float}
    (h : ∀ element ∈ elements, (apply element).Meets (fun v => f element = .ok v) R) :
    (mapResults body apply elements).Meets (fun results => elements.mapM f = .ok results) R := by
  rw [mapResults]
  split
  · exact .each fun element mem => Script.Meets.tick.bind fun _ _ => h element mem
  · -- Batches are lists of elements put end to end, so each may be treated as a list of its own.
    have batch : ∀ items ∈ batches batchSize elements, Script.Meets (do
          Script.tick
          let values ← Script.join items.length fun i => apply (items.get i)
          return List.ofFn values) (fun results => items.mapM f = .ok results) R := by
      intro items mem
      have inside : ∀ i, items.get i ∈ elements := by
        intro i
        rw [← flatten_batches batchSize elements]
        exact List.mem_flatten.2 ⟨items, mem, List.get_mem items i⟩
      refine Script.Meets.tick.bind fun _ _ => ?_
      refine (Script.Meets.join fun i => h _ (inside i)).bind fun values hvalues => ?_
      exact .pure (mapM_eq_ofFn hvalues)
    refine (Script.Meets.each batch).bind fun results hresults => .pure ?_
    rw [← flatten_batches batchSize elements]
    exact mapM_flatten hresults

/-- `map` over elements: the lambda for each of them, and its results checked. -/
theorem meets_evalMap {body : Expr} {apply : Float → Script Note Value}
    {f : Float → Except Fault Value} {elements : List Float}
    (h : ∀ element ∈ elements, (apply element).Meets (fun v => f element = .ok v) R)
    (hcheck : ∀ element ∈ elements, ∀ result fault, f element = .ok result →
      requireElement body result = .error fault → R fault) :
    (evalMap body apply elements).Meets (fun v => ∃ mapped, v = .sequence mapped ∧
      (elements.mapM fun element => f element >>= requireElement body) = .ok mapped) R := by
  refine (meets_mapResults h).bind fun results hresults => ?_
  refine (Script.Meets.ofExcept (V := fun mapped => results.mapM (requireElement body) = .ok mapped)
    (.of_eq (fun _ => id) fun fault hfault => ?_)).bind fun mapped hmapped => .pure ?_
  · -- A result that is refused is that of some element.
    obtain ⟨result, mem, refused⟩ := exists_error_of_mapM hfault
    obtain ⟨element, inside, hresult⟩ := mem_of_mapM hresults mem
    exact hcheck element inside result fault hresult refused
  · exact ⟨mapped, rfl, mapM_bind hresults hmapped⟩

section Calls

variable {apply : Value → Value → Script Note Value} {call : Value → Value → Except Fault Value}
  {raises : Value → Value → Fault → Prop}
  (hcall : ∀ a b, (apply a b).Meets (fun v => call a b = .ok v) (raises a b))

include hcall

/-- A fold from the left. -/
theorem meets_foldElements {accumulated : Value} {elements : List Float}
    (hR : ∀ fault, FoldRaises call raises accumulated elements fault → R fault) :
    (foldElements apply accumulated elements).Meets
      (fun v => foldValue call accumulated elements = .ok v) R := by
  induction elements generalizing accumulated with
  | nil => exact .pure rfl
  | cons element elements ih =>
    refine Script.Meets.tick.bind fun _ _ => ?_
    have first := (hcall accumulated (.number element)).mono (fun _ => id) fun fault hfault =>
      hR fault (.inl hfault)
    refine first.bind fun result hresult => ?_
    refine (ih fun fault hfault => hR fault (.inr ⟨result, hresult, hfault⟩)).mono (fun v hv => ?_)
      fun _ => id
    exact bind_eq_ok.2 ⟨result, hresult, hv⟩

/-- A merge tree, with halves that are combined in place or handed out. -/
theorem MergeTree.meets_combine {t : MergeTree}
    (hR : ∀ fault, t.Raises call raises fault → R fault) :
    (t.combine apply).Meets (fun v => t.value call = .ok v) R := by
  -- A pair of leaves is combined in place. Larger trees have their halves, by induction, and then
  -- the call at the node, whether the halves are combined in place or handed out.
  fun_induction combine apply t with
  | case1 value => exact Script.Meets.tick.bind fun _ _ => .pure rfl
  | case2 a b =>
    refine Script.Meets.tick.bind fun _ _ => ?_
    exact (hcall _ _).mono (fun _ => id) fun fault hfault =>
      hR fault (.inr (.inr ⟨_, _, rfl, rfl, hfault⟩))
  | case3 left right _ ihl ihr =>
    refine Script.Meets.tick.bind fun _ _ => ?_
    have hl := ihl fun fault hfault => hR fault (.inl hfault)
    have hr := ihr fun fault hfault => hR fault (.inr (.inl hfault))
    have node : ∀ a b, left.value call = .ok a → right.value call = .ok b →
        (apply a b).Meets (fun v => (MergeTree.node left right).value call = .ok v) R := by
      intro a b ha hb
      refine (hcall a b).mono (fun v hv => ?_) fun fault hfault =>
        hR fault (.inr (.inr ⟨a, b, ha, hb, hfault⟩))
      exact bind_eq_ok.2 ⟨a, ha, bind_eq_ok.2 ⟨b, hb, hv⟩⟩
    dsimp only
    split
    · exact hl.bind fun a ha => hr.bind fun b hb => node a b ha hb
    · exact ((Plan.Meets.single hl).both (Plan.Meets.single hr)).run.bind fun ⟨a, b⟩ hv =>
        node a b hv.1 hv.2

end Calls

/-! ## Expressions -/

/-- At the head of any chain, the script of the expression meets its value and the faults it raises:
the operators behind it find that value. -/
def Expr.Refined (e : Expr) : Prop :=
  ∀ {scope : Scope} {steps : List (Text × Operand Note)} {V : Value → Prop} {R : Fault → Prop}
    {S : List (Text × Value) → Prop},
    (∀ fault, e.Raises scope fault → R fault) →
    Within (·.Meets S R) R (Operand.planSteps steps) →
    (∀ v values, e.value scope = .ok v → S values → Within V R (applySteps v values)) →
    (e.evalFirst scope steps).Meets V R

namespace Expr

variable {scope : Scope}

/-- An expression that is no chain, given the script that it is at the head of every chain. -/
theorem refined_of_compound {e : Expr} {script : Scope → Script Note Value}
    (heval : ∀ scope steps, e.evalFirst scope steps = evalChain (.compound (script scope)) steps)
    (hscript : ∀ scope, (script scope).Meets (fun v => e.value scope = .ok v) (e.Raises scope)) :
    e.Refined := by
  intro scope steps V R S hraises hsteps happly
  rw [heval]
  exact meets_evalChain ((hscript scope).mono (fun _ => id) hraises) hsteps happly

/-- An expression on its own. -/
theorem Refined.alone {e : Expr} (h : e.Refined)
    (hraises : ∀ fault, e.Raises scope fault → R fault) :
    (e.evalFirst scope []).Meets (fun v => e.value scope = .ok v) R := by
  refine h hraises (S := (· = [])) (Plan.Meets.done rfl) ?_
  rintro v _ hv rfl
  exact hv

/-- An expression as an operand. -/
theorem Refined.operand {e : Expr} (h : e.Refined)
    (hraises : ∀ fault, e.Raises scope fault → R fault) :
    (Operand.ofExpr e scope (e.evalFirst scope [])).Meets (fun v => e.value scope = .ok v) R := by
  cases e with
  | number value => exact (rfl : (number value).value scope = _)
  | ident name => exact .of_eq (fun _ => id) hraises
  | negate | binary | range | map | reduce => exact h.alone hraises

theorem refined_number (value : Float) : (number value).Refined := by
  intro scope steps V R S _ hsteps happly
  exact meets_evalChain (F := fun v => (number value).value scope = .ok v) rfl hsteps happly

theorem refined_ident (name : Text) : (ident name).Refined := by
  intro scope steps V R S hraises hsteps happly
  exact meets_evalChain (F := fun v => (ident name).value scope = .ok v)
    (.of_eq (fun _ => id) hraises) hsteps happly

theorem refined_negate {operand : Expr} (h : operand.Refined) : (negate operand).Refined := by
  refine refined_of_compound (fun _ _ => rfl) fun scope => ?_
  refine Script.Meets.check.bind fun _ _ => ?_
  refine (h.alone fun _ => id).bind fun v hv => .pure ?_
  exact bind_eq_ok.2 ⟨v, hv, rfl⟩

/-- A chain that goes on: the operator behind the left side finds its value, and the operators
behind the whole find what comes of it. -/
theorem refined_binary {left right : Expr} (op : Text) (hl : left.Refined) (hr : right.Refined) :
    (binary left op right).Refined := by
  intro scope steps V R S hraises hsteps happly
  -- The chain is taken apart along its left side, so the left operand is at the head of a longer
  -- chain, whose first step is this operator and the right operand.
  refine hl
    (S := fun values => ∃ b rest, values = (op, b) :: rest ∧ right.value scope = .ok b ∧ S rest)
    (fun fault hfault => hraises fault (.inl hfault))
    (Operand.within_planSteps_cons
      (hr.operand fun fault hfault => hraises fault (.inr (.inl hfault))) hsteps
      fun b rest hb hrest => ⟨b, rest, rfl, hb, hrest⟩) ?_
  rintro a _ ha ⟨b, rest, rfl, hb, hrest⟩
  rw [applySteps, List.foldlM_cons]
  refine Within.bind (V := fun c => (binary left op right).value scope = .ok c)
    (.of_eq (fun c hc => ?_) fun fault hfault => ?_) fun c hc => happly c rest hc hrest
  · exact bind_eq_ok.2 ⟨a, ha, bind_eq_ok.2 ⟨b, hb, hc⟩⟩
  · exact hraises fault (.inr (.inr ⟨a, b, ha, hb, hfault⟩))

theorem refined_range {first last : Expr} (hf : first.Refined) (hl : last.Refined) :
    (range first last).Refined := by
  refine refined_of_compound (fun _ _ => rfl) fun scope => ?_
  refine Script.Meets.check.bind fun _ _ => ?_
  refine (meets_evalPair (hf.operand fun _ => .inl) (hl.operand fun _ h => .inr (.inl h))).bind
    fun v hv => .ofExcept (.of_eq (fun c hc => ?_) fun fault hfault => ?_)
  · exact bind_eq_ok.2 ⟨_, hv.1, bind_eq_ok.2 ⟨_, hv.2, hc⟩⟩
  · exact .inr (.inr ⟨_, _, hv.1, hv.2, hfault⟩)

theorem refined_map {source body : Expr} (param : Text) (hs : source.Refined) (hb : body.Refined) :
    (map source param body).Refined := by
  refine refined_of_compound (fun _ _ => rfl) fun scope => ?_
  refine Script.Meets.check.bind fun _ _ => ?_
  refine (hs.alone fun _ => .inl).bind fun s hsource => ?_
  refine (Script.Meets.ofExcept (V := fun elements => requireSequence .map s = .ok elements)
    (.of_eq (fun _ => id) fun fault hfault => .inr ⟨s, hsource, .inl hfault⟩)).bind
    fun elements helements => ?_
  -- Whatever goes wrong for an element is a fault of the whole.
  have inside : ∀ element ∈ elements, ∀ fault,
      (body.Raises ([(param, .number element)] :: scope) fault ∨
        ∃ result, body.value ([(param, .number element)] :: scope) = .ok result ∧
          requireElement body result = .error fault) → (map source param body).Raises scope fault :=
    fun element mem fault h => .inr ⟨s, hsource, .inr ⟨elements, helements, element, mem, h⟩⟩
  refine (meets_evalMap
    (fun element mem => hb.alone fun fault h => inside element mem fault (.inl h))
    fun element mem result fault hresult h =>
      inside element mem fault (.inr ⟨result, hresult, h⟩)).mono ?_ fun _ => id
  rintro _ ⟨mapped, rfl, hmapped⟩
  exact bind_eq_ok.2 ⟨s, hsource, bind_eq_ok.2 ⟨elements, helements,
    bind_eq_ok.2 ⟨mapped, hmapped, rfl⟩⟩⟩

/-- A call of a two-parameter lambda. -/
theorem Refined.call {body : Expr} (h : body.Refined) (param₁ param₂ : Text) (scope : Scope)
    (a b : Value) :
    (callLambda body param₁ param₂ scope (fun inner => body.evalFirst inner []) a b).Meets
      (fun v => lambdaValue body param₁ param₂ scope body.value a b = .ok v)
      (LambdaRaises body param₁ param₂ scope body.value body.Raises a b) := by
  refine (h.alone fun _ => .inl).bind fun result hresult => ?_
  refine (Script.Meets.ofExcept (V := fun x => requireNumber body result = .ok x)
    (.of_eq (fun _ => id) fun fault hfault => .inr ⟨result, hresult, hfault⟩)).bind
      fun x hx => .pure ?_
  exact bind_eq_ok.2 ⟨result, hresult, bind_eq_ok.2 ⟨x, hx, rfl⟩⟩

theorem refined_reduce {source neutral body : Expr} (param₁ param₂ : Text) (hs : source.Refined)
    (hn : neutral.Refined) (hb : body.Refined) :
    (reduce source neutral param₁ param₂ body).Refined := by
  refine refined_of_compound (fun _ _ => rfl) fun scope => ?_
  refine Script.Meets.check.bind fun _ _ => ?_
  refine (meets_evalPair (hs.operand fun _ => .inl) (hn.operand fun _ h => .inr (.inl h))).bind
    fun v hv => ?_
  obtain ⟨s, n⟩ := v
  obtain ⟨hsource, hneutral⟩ := hv
  refine (Script.Meets.ofExcept (V := fun elements => requireSequence .reduce s = .ok elements)
    (.of_eq (fun _ => id) fun fault hfault =>
      .inr (.inr ⟨s, n, hsource, hneutral, .inl hfault⟩))).bind fun elements helements => ?_
  refine (Script.Meets.ofExcept (V := fun start => requireNeutral n = .ok start)
    (.of_eq (fun _ => id) fun fault hfault =>
      .inr (.inr ⟨s, n, hsource, hneutral, .inr ⟨elements, helements, .inl hfault⟩⟩))).bind
    fun start hstart => ?_
  refine (Script.Meets.note _).bind fun _ _ => ?_
  -- From here on, values and faults are those of the calls of the lambda.
  have combined : ∀ v, (if body.isMerging param₁ param₂ then
        (MergeTree.balanced start elements).value (lambdaValue body param₁ param₂ scope body.value)
      else foldValue (lambdaValue body param₁ param₂ scope body.value) (.number start) elements) =
        .ok v →
      (reduce source neutral param₁ param₂ body).value scope = .ok v := fun v h =>
    bind_eq_ok.2 ⟨s, hsource, bind_eq_ok.2 ⟨n, hneutral, bind_eq_ok.2 ⟨elements, helements,
      bind_eq_ok.2 ⟨start, hstart, h⟩⟩⟩⟩
  have raised : ∀ fault, (if body.isMerging param₁ param₂ then
        (MergeTree.balanced start elements).Raises (lambdaValue body param₁ param₂ scope body.value)
          (LambdaRaises body param₁ param₂ scope body.value body.Raises) fault
      else FoldRaises (lambdaValue body param₁ param₂ scope body.value)
          (LambdaRaises body param₁ param₂ scope body.value body.Raises) (.number start) elements
          fault) →
      (reduce source neutral param₁ param₂ body).Raises scope fault := fun fault h =>
    .inr (.inr ⟨s, n, hsource, hneutral, .inr ⟨elements, helements, .inr ⟨start, hstart, h⟩⟩⟩)
  by_cases merging : body.isMerging param₁ param₂
  · simp only [merging, if_true] at combined raised ⊢
    exact (MergeTree.meets_combine (hb.call param₁ param₂ scope) raised).mono combined fun _ => id
  · simp only [merging] at combined raised ⊢
    exact (meets_foldElements (hb.call param₁ param₂ scope) raised).mono combined fun _ => id

theorem refined (e : Expr) : e.Refined := by
  induction e with
  | number value => exact refined_number value
  | ident name => exact refined_ident name
  | negate operand ih => exact refined_negate ih
  | binary left op right ihl ihr => exact refined_binary op ihl ihr
  | range first last ihf ihl => exact refined_range ihf ihl
  | map source param body ihs ihb => exact refined_map param ihs ihb
  | reduce source neutral param₁ param₂ body ihs ihn ihb =>
    exact refined_reduce param₁ param₂ ihs ihn ihb

/-- The script of an expression meets its value and the faults it raises. -/
theorem meets_eval (e : Expr) (scope : Scope) :
    (e.eval scope).Meets (fun v => e.value scope = .ok v) (e.Raises scope) :=
  Refined.alone e.refined fun _ => id

/-- An expression that is evaluated without interruption comes to its value, or, if it has none, to
a fault that it raises. -/
theorem outcome_eval (e : Expr) (scope : Scope) (desk : Desk Note)
    (asked : desk.checkpoint.cancelled = false) :
    (∃ v, e.value scope = .ok v ∧ (run false (e.eval scope .ret) desk).outcome = .ok v) ∨
      ∃ first fault, e.value scope = .error first ∧ e.Raises scope fault ∧
        (run false (e.eval scope .ret) desk).outcome = .error (.error (.fault fault)) := by
  rcases (e.meets_eval scope).outcome desk asked with h | ⟨fault, raises, h⟩
  · exact .inl h
  · obtain ⟨first, hfirst⟩ := exists_value_eq_error raises
    exact .inr ⟨first, fault, hfirst, raises, h⟩

end Expr

end RangeCalc
