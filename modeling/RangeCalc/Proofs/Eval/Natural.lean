import RangeCalc.Proofs.Eval.Refinement
import RangeCalc.Proofs.Loop.Alike
import RangeCalc.Run

/-!
# Scripts and what comes after them

A script is given what comes after it. It may hand a value to it or leave it out, but it does not
look into it: what is done after a script and its continuation can be done by the continuation
(`Script.Natural`). So a script is its own action, followed by what comes after it
(`Script.Natural.eq_andThen`), and what comes after it matters only if it has a value.

* `Expr.natural_eval`: the script of an expression is of this kind;
* `Expr.FailsWith`: the faults that the evaluation of an expression can come to;
* `Expr.meets_failsWith`: within any script, too, an expression comes to a value or one of these
  faults;
* `Expr.outcome_eq_ok_iff`: an expression that is left alone comes to its value, on any desk.
-/

namespace RangeCalc

open Loop

variable {ν β γ : Type}

/-! ## Scripts -/

/-- What is done after the script and its continuation can be done by the continuation. -/
def Script.Natural (script : Script ν β) : Prop :=
  ∀ (next : β → Evaluation ν) (later : Value → Evaluation ν),
    (script next).andThen later = script fun b => (next b).andThen later

namespace Script.Natural

theorem pure (b : β) : (Pure.pure b : Script ν β).Natural := fun _ _ => rfl

theorem bind {script : Script ν β} {f : β → Script ν γ} (h : script.Natural)
    (hf : ∀ b, (f b).Natural) : (script >>= f).Natural := by
  intro next later
  have outer : (script fun b => f b next).andThen later =
      script fun b => (f b next).andThen later := h _ later
  have inner : (fun b => (f b next).andThen later) = fun b => f b fun c => (next c).andThen later :=
    funext fun b => hf b next later
  exact outer.trans (congrArg script inner)

theorem ofExcept (result : Except Fault β) : (Script.ofExcept result : Script ν β).Natural := by
  rcases result with fault | b
  · exact fun _ _ => rfl
  · exact pure b

theorem check : (Script.check : Script ν Unit).Natural := by
  intro next later
  refine congrArg Action.poll (funext fun cancelled => ?_)
  rcases cancelled with _ | _ <;> rfl

theorem tick : (Script.tick : Script ν Unit).Natural :=
  check.bind fun _ => bind (fun _ _ => rfl) fun _ => check

theorem note (message : ν) : (Script.note message).Natural := fun _ _ => rfl

theorem join {n : Nat} (part : Fin n → Script ν Value) : (Script.join n part).Natural :=
  fun _ _ => rfl

theorem each {script : β → Script ν γ} (h : ∀ item, (script item).Natural) (items : List β) :
    (Script.each script items).Natural := by
  induction items with
  | nil => exact pure []
  | cons item items ih => exact (h item).bind fun first => ih.bind fun others => pure _

/-- A script is its own action, followed by what comes after it. -/
theorem eq_andThen {script : Script ν Value} (h : script.Natural) (next : Value → Evaluation ν) :
    script next = (script .ret).andThen next :=
  (h .ret next).symm

/-- What comes after a script matters only for the values that it can come to. -/
theorem alike {script : Script ν Value} (h : script.Natural) {next next' : Value → Evaluation ν}
    (hnext : ∀ v, (script .ret).Yields false (.ok v) → (next v).Alike (next' v)) :
    (script next).Alike (script next') := by
  rw [h.eq_andThen next, h.eq_andThen next']
  exact Action.alike_andThen hnext

end Script.Natural

/-! ## Plans and operands -/

/-- The parts of the plan are natural, so that one of them can be carried out in place. -/
def Plan.Natural (p : Plan ν β) : Prop := ∀ i, (p.part i).Natural

namespace Plan.Natural

theorem both {p : Plan ν β} {q : Plan ν γ} (hp : p.Natural) (hq : q.Natural) :
    (p.both q).Natural := by
  refine Fin.addCases (fun i => ?_) fun i => ?_
  · simpa only [Plan.both, Fin.addCases_left] using hp i
  · simpa only [Plan.both, Fin.addCases_right] using hq i

theorem run {p : Plan ν β} (hp : p.Natural) : p.run.Natural := by
  obtain ⟨n, part, build⟩ := p
  match n with
  | 0 => exact .pure _
  | 1 => exact (hp 0).bind fun value => .pure _
  | n + 2 => exact (Script.Natural.join part).bind fun values => .pure _

end Plan.Natural

namespace Operand

/-- The script of the operand is natural, if it has one. -/
def Natural : Operand ν → Prop
  | leaf _ => True
  | compound script => script.Natural

theorem Natural.script {o : Operand ν} (h : o.Natural) : o.script.Natural := by
  rcases o with result | script
  · exact .ofExcept result
  · exact h

theorem Natural.plan {o : Operand ν} (h : o.Natural) :
    Within Plan.Natural (fun _ => True) o.plan := by
  rcases o with (fault | value) | script
  · trivial
  · exact nofun
  · exact fun _ => h

theorem Natural.planPair {a b : Operand ν} (ha : a.Natural) (hb : b.Natural) :
    Within Plan.Natural (fun _ => True) (a.planPair b) :=
  ha.plan.bind fun _ hp => hb.plan.bind fun _ hq => hp.both hq

theorem natural_planSteps {steps : List (Text × Operand ν)} (h : ∀ step ∈ steps, step.2.Natural) :
    Within Plan.Natural (fun _ => True) (planSteps steps) := by
  induction steps with
  | nil => exact nofun
  | cons step steps ih =>
    have first := (h step List.mem_cons_self).plan
    have others := ih fun other mem => h other (List.mem_cons_of_mem step mem)
    exact first.bind fun _ hp => others.bind fun _ hq => hp.both hq

theorem Natural.planChain {first : Operand ν} {steps : List (Text × Operand ν)} (h : first.Natural)
    (hsteps : ∀ step ∈ steps, step.2.Natural) :
    Within Plan.Natural (fun _ => True) (first.planChain steps) :=
  h.plan.bind fun _ hp => (natural_planSteps hsteps).bind fun _ hq => hp.both hq

end Operand

/-- A plan that is made and carried out. -/
theorem natural_plan {result : Except Fault (Plan ν β)}
    (h : Within Plan.Natural (fun _ => True) result) :
    (Script.ofExcept result >>= Plan.run).Natural := by
  rcases result with fault | plan
  · exact fun _ _ => rfl
  · exact h.run

theorem natural_evalChain {first : Operand ν} {steps : List (Text × Operand ν)} (h : first.Natural)
    (hsteps : ∀ step ∈ steps, step.2.Natural) : (evalChain first steps).Natural := by
  rcases steps with _ | ⟨step, steps⟩
  · exact h.script
  · refine Script.Natural.check.bind fun _ => ?_
    exact (natural_plan (h.planChain hsteps)).bind fun values => .ofExcept _

theorem natural_evalPair {a b : Operand ν} (ha : a.Natural) (hb : b.Natural) :
    (evalPair a b).Natural :=
  natural_plan (ha.planPair hb)

/-! ## Combinators -/

theorem natural_evalMap {body : Expr} {apply : Float → Script ν Value}
    (h : ∀ element, (apply element).Natural) (elements : List Float) :
    (evalMap body apply elements).Natural := by
  have results : (mapResults body apply elements).Natural := by
    rw [mapResults]
    split
    · exact .each (fun element => Script.Natural.tick.bind fun _ => h element) elements
    · refine (Script.Natural.each (fun batch => ?_) _).bind fun results => .pure _
      exact Script.Natural.tick.bind fun _ => (Script.Natural.join _).bind fun values => .pure _
  exact results.bind fun _ => (Script.Natural.ofExcept _).bind fun _ => .pure _

section Calls

variable {apply : Value → Value → Script ν Value} (h : ∀ a b, (apply a b).Natural)

include h

theorem natural_foldElements (accumulated : Value) (elements : List Float) :
    (foldElements apply accumulated elements).Natural := by
  induction elements generalizing accumulated with
  | nil => exact .pure accumulated
  | cons element elements ih =>
    exact Script.Natural.tick.bind fun _ => (h _ _).bind fun result => ih result

theorem MergeTree.natural_combine (t : MergeTree) : (t.combine apply).Natural := by
  fun_induction combine apply t with
  | case1 value => exact Script.Natural.tick.bind fun _ => .pure _
  | case2 a b => exact Script.Natural.tick.bind fun _ => h _ _
  | case3 left right _ ihl ihr =>
    refine Script.Natural.tick.bind fun _ => ?_
    dsimp only
    split
    · exact ihl.bind fun a => ihr.bind fun b => h a b
    · exact (Plan.Natural.run (.both (fun _ => ihl) fun _ => ihr)).bind fun v => h v.1 v.2

end Calls

/-! ## Expressions -/

namespace Expr

theorem natural_operand {e : Expr} {scope : Scope} {script : Script ν Value} (h : script.Natural) :
    (Operand.ofExpr e scope script).Natural := by
  cases e with
  | number | ident => trivial
  | negate | binary | range | map | reduce => exact h

theorem natural_evalFirst (e : Expr) (scope : Scope) {steps : List (Text × Operand Note)}
    (hsteps : ∀ step ∈ steps, step.2.Natural) : (e.evalFirst scope steps).Natural := by
  have none : ∀ step ∈ ([] : List (Text × Operand Note)), step.2.Natural := List.forall_mem_nil _
  induction e generalizing scope steps with
  | number | ident => exact natural_evalChain trivial hsteps
  | negate operand ih =>
    refine natural_evalChain (Script.Natural.check.bind fun _ => ?_) hsteps
    exact (ih scope none).bind fun value => .pure _
  | binary left op right ihl ihr =>
    refine ihl scope fun step mem => ?_
    rcases List.mem_cons.1 mem with rfl | mem
    · exact natural_operand (ihr scope none)
    · exact hsteps step mem
  | range first last ihf ihl =>
    refine natural_evalChain (Script.Natural.check.bind fun _ => ?_) hsteps
    exact (natural_evalPair (natural_operand (ihf scope none))
      (natural_operand (ihl scope none))).bind fun v => .ofExcept _
  | map source param body ihs ihb =>
    refine natural_evalChain (Script.Natural.check.bind fun _ => ?_) hsteps
    refine (ihs scope none).bind fun value => (Script.Natural.ofExcept _).bind fun elements => ?_
    exact natural_evalMap (fun element => ihb _ none) elements
  | reduce source neutral param₁ param₂ body ihs ihn ihb =>
    refine natural_evalChain (Script.Natural.check.bind fun _ => ?_) hsteps
    refine (natural_evalPair (natural_operand (ihs scope none))
      (natural_operand (ihn scope none))).bind fun v => ?_
    refine (Script.Natural.ofExcept _).bind fun elements => ?_
    refine (Script.Natural.ofExcept _).bind fun start => (Script.Natural.note _).bind fun _ => ?_
    have call : ∀ a b, (callLambda body param₁ param₂ scope (fun inner => body.evalFirst inner [])
        a b).Natural := fun a b =>
      (ihb _ none).bind fun result => (Script.Natural.ofExcept _).bind fun x => .pure _
    split
    · exact MergeTree.natural_combine call _
    · exact natural_foldElements call _ _

theorem natural_eval (e : Expr) (scope : Scope) : (e.eval scope).Natural :=
  e.natural_evalFirst scope (List.forall_mem_nil _)

end Expr

/-! ## Values and faults of an expression that is left alone -/

/-- The outcome of an evaluation that comes to this result. -/
def Loop.Outcome.ofResult (result : Except Fault Value) : Outcome Failure Value :=
  result.mapError fun fault => .error (.fault fault)

/-- A script that can only come to one result does. -/
theorem Script.Meets.outcome_eq {script : Script Note Value} (result : Except Fault Value)
    (h : script.Meets (fun v => result = .ok v) fun fault => result = .error fault)
    {desk : Desk Note} (asked : desk.checkpoint.cancelled = false) :
    (run false (script .ret) desk).outcome = Outcome.ofResult result := by
  rcases h.outcome desk asked with ⟨v, rfl, eq⟩ | ⟨fault, rfl, eq⟩
  · exact eq
  · exact eq

namespace Expr

/-- The evaluation of an expression that is left alone. -/
def report (e : Expr) (scope : Scope) (desk : Desk Note) : Report Note Failure Value :=
  run false (e.eval scope .ret) desk

/-- A fault that the evaluation of the expression can come to: it does if its parts take their turns
in a suitable order. -/
def FailsWith (e : Expr) (scope : Scope) (fault : Fault) : Prop :=
  (e.eval scope .ret).Yields false (.error (.error (.fault fault)))

variable {e : Expr} {scope : Scope}

/-- An expression that can come to a value has that value. -/
theorem value_of_yields {v : Value} (h : (e.eval scope .ret).Yields false (.ok v)) :
    e.value scope = .ok v := by
  rcases (e.meets_eval scope).yields h with ⟨_, value, ⟨⟩⟩ | ⟨_, _, ⟨⟩⟩
  exact value

/-- Within a script, too, an expression comes to a value or a fault that it comes to by itself. -/
theorem meets_failsWith (e : Expr) (scope : Scope) :
    (e.eval scope).Meets (fun v => (e.eval scope .ret).Yields false (.ok v))
      (e.FailsWith scope) := by
  intro next o ho
  rw [(e.natural_eval scope).eq_andThen next] at ho
  rcases Action.yields_andThen ho with ⟨v, hv, later⟩ | ⟨stop, failed, rfl⟩
  · exact .inl ⟨v, hv, later⟩
  · rcases (e.meets_eval scope).yields failed with ⟨_, _, ⟨⟩⟩ | ⟨fault, _, ⟨⟩⟩
    exact .inr ⟨fault, failed, rfl⟩

/-- An expression that is left alone comes to a value if that is its value, on any desk. -/
theorem outcome_eq_ok_iff {desk : Desk Note} (asked : desk.checkpoint.cancelled = false)
    {v : Value} :
    (e.report scope desk).outcome = .ok v ↔ e.value scope = .ok v := by
  rcases e.outcome_eval scope desk asked with ⟨w, value, h⟩ | ⟨first, fault, value, _, h⟩ <;>
    rw [report, value, h]
  · simp only [Except.ok.injEq]
  · exact ⟨nofun, nofun⟩

theorem valueOf_eq_ok_iff {v : Value} : Run.valueOf scope e = .ok v ↔ e.value scope = .ok v :=
  outcome_eq_ok_iff rfl

/-- A name has the value that it is bound to. -/
theorem valueOf_ident (scope : Scope) (name : Text) :
    Run.valueOf scope (ident name) = .ofResult (scope.get name) :=
  Script.Meets.outcome_eq _ (.ofExcept (.of_eq (fun _ => id) fun _ => id)) rfl

/-- Within a script, too, an expression that has a value comes to it. -/
theorem meets_of_valueOf_eq_ok {v : Value} (h : Run.valueOf scope e = .ok v) (R : Fault → Prop) :
    (e.eval scope).Meets (· = v) R := by
  have value := valueOf_eq_ok_iff.1 h
  refine (e.meets_eval scope).mono (fun w hw => ?_) fun fault raises =>
    absurd raises (not_raises value)
  exact Except.ok.inj (hw.symm.trans value)

/-- An expression without a value never hands one on. -/
theorem not_yields_of_valueOf_eq_error {failure : Stop Failure}
    (h : Run.valueOf scope e = .error failure) (v : Value) :
    ¬(e.eval scope .ret).Yields false (.ok v) := by
  intro hv
  cases h.symm.trans (valueOf_eq_ok_iff.2 (value_of_yields hv))

end Expr

end RangeCalc
