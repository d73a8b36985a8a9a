import Mathlib.Data.List.OfFn
import RangeCalc.Proofs.Eval.Natural

/-!
# Operands before operators

A chain of operations, a range and a `reduce` need the values of several expressions, their
operands, before they can do anything. Which fault is met if more than one thing is wrong is decided
by the order of three phases: leaves are looked up from left to right, then the other operands are
evaluated together, and only then is something done with the values.

* `Planned`: what a plan for operands consists of. A leaf without a value ends the planning.
* `Together`: a script that goes through the three phases. If an operand fails in the second, the
  third is not reached, so scripts with the same operands have the same run (`Together.alike`).
* `Expr.operands`: the operands of an expression. Those of a chain are found along its left side,
  which the evaluation takes apart in the same way (`Expr.evalFirst_eq_evalChain`).
* `operandsFirst`: the order of evaluation, phase by phase.
-/

namespace RangeCalc

open Loop Result

variable {ν β γ : Type}

/-! ## Plans for operands -/

namespace Operand

/-- The fault of a leaf without a value. -/
def fault? : Operand ν → Option Fault
  | leaf (.error fault) => some fault
  | _ => none

/-- The script of an operand that is no leaf. -/
def script? : Operand ν → Option (Script ν Value)
  | compound script => some script
  | leaf _ => none

end Operand

/-- How operands are planned: the first leaf without a value is the fault, and if there is none, the
scripts of the operands that are no leaves are the parts. -/
inductive Planned (operands : List (Operand ν)) : Except Fault (Plan ν β) → Prop
  | fault {fault : Fault} : operands.findSome? Operand.fault? = some fault →
      Planned operands (.error fault)
  | plan {p : Plan ν β} : operands.findSome? Operand.fault? = none →
      List.ofFn p.part = operands.filterMap Operand.script? → Planned operands (.ok p)

namespace Planned

theorem single (o : Operand ν) : Planned [o] o.plan := by
  rcases o with (fault | value) | script
  · exact .fault rfl
  · exact .plan rfl rfl
  · exact .plan rfl rfl

theorem none (b : β) : Planned [] (.ok (Plan.done b) : Except Fault (Plan ν β)) := .plan rfl rfl

theorem both {δ : Type} {f : β × γ → δ} {left right : List (Operand ν)}
    {p : Except Fault (Plan ν β)} {q : Except Fault (Plan ν γ)} (hp : Planned left p)
    (hq : Planned right q) :
    Planned (left ++ right) (do
      let p ← p
      let q ← q
      return (p.both q).map f) := by
  rcases hp with hp | ⟨none_left, parts⟩
  · exact .fault (by rw [List.findSome?_append, hp, Option.some_or])
  · rcases hq with hq | ⟨none_right, parts'⟩
    · exact .fault (by rw [List.findSome?_append, none_left, hq, Option.none_or])
    · refine .plan (by rw [List.findSome?_append, none_left, none_right, Option.none_or]) ?_
      rw [List.filterMap_append, ← parts, ← parts']
      exact List.ofFn_fin_append _ _

end Planned

namespace Operand

theorem planned_planPair (a b : Operand ν) : Planned [a, b] (a.planPair b) :=
  Planned.both (f := id) (.single a) (.single b)

theorem planned_planSteps (steps : List (Text × Operand ν)) :
    Planned (steps.map Prod.snd) (planSteps steps) := by
  induction steps with
  | nil => exact .none []
  | cons step steps ih => exact (Planned.single step.2).both ih

theorem planned_planChain (first : Operand ν) (steps : List (Text × Operand ν)) :
    Planned (first :: steps.map Prod.snd) (first.planChain steps) :=
  Planned.both (f := id) (.single first) (planned_planSteps steps)

end Operand

/-- A script that evaluates operands together and then does something with their values. -/
inductive Together (operands : List (Operand ν)) : Script ν Value → Prop
  | intro {γ : Type} {result : Except Fault (Plan ν γ)} (finish : γ → Script ν Value) :
      Planned operands result →
      Together operands (do
        Script.check
        let plan ← Script.ofExcept result
        let b ← plan.run
        finish b)

namespace Together

variable {operands : List (Operand Note)} {script script' : Script Note Value}

/-- A leaf without a value ends the script before anything else is evaluated. -/
theorem eq_fault (h : Together operands script) {fault : Fault}
    (leaf : operands.findSome? Operand.fault? = some fault) :
    script = (do
      Script.check
      Script.fault fault) := by
  obtain ⟨finish, ⟨leaf'⟩ | ⟨none, -⟩⟩ := h
  · obtain rfl := Option.some.inj (leaf.symm.trans leaf')
    rfl
  · cases leaf.symm.trans none

/-- Behind parts of which one never has a value, anything may stand. -/
theorem alike_run {n : Nat} {part : Fin n → Script Note Value} {build : (Fin n → Value) → β}
    {build' : (Fin n → Value) → γ} (natural : ∀ i, (part i).Natural) {i : Fin n}
    (fails : ∀ v, ¬(part i .ret).Yields false (.ok v)) (next : β → Evaluation Note)
    (next' : γ → Evaluation Note) :
    ((Plan.mk n part build).run next).Alike ((Plan.mk n part build').run next') := by
  match n with
  | 0 => exact i.elim0
  | 1 =>
    -- The single part is carried out in place, and what follows it is not reached.
    obtain rfl : i = 0 := Subsingleton.elim i 0
    exact (natural 0).alike fun v hv => absurd hv (fails v)
  | n + 2 => exact .join fun values parts => absurd (parts i) (fails _)

/-- If an operand never has a value, what is done with the values does not matter. -/
theorem alike (h : Together operands script) (h' : Together operands script')
    (leaves : operands.findSome? Operand.fault? = none)
    (natural : ∀ part ∈ operands.filterMap Operand.script?, part.Natural)
    {failing : Script Note Value} (mem : failing ∈ operands.filterMap Operand.script?)
    (fails : ∀ v, ¬(failing .ret).Yields false (.ok v)) :
    (script .ret).Alike (script' .ret) := by
  obtain ⟨finish, ⟨leaf⟩ | @⟨⟨n, part, build⟩, -, parts⟩⟩ := h
  · cases leaves.symm.trans leaf
  obtain ⟨finish', ⟨leaf⟩ | @⟨⟨n', part', build'⟩, -, parts'⟩⟩ := h'
  · cases leaves.symm.trans leaf
  -- Both plans have the scripts of the operands as their parts.
  obtain ⟨rfl, same⟩ := Sigma.mk.inj (List.ofFn_inj'.1 (parts.trans parts'.symm))
  obtain rfl := eq_of_heq same
  rw [← parts] at natural mem
  obtain ⟨i, rfl⟩ := List.mem_ofFn.1 mem
  exact .poll (alike_run (fun j => natural _ (List.mem_ofFn.2 ⟨j, rfl⟩)) fails _ _)

/-- A script whose operands can only fail. -/
theorem meets_of_failing (h : Together operands script) {R : Fault → Prop}
    (leaves : operands.findSome? Operand.fault? = none)
    (parts : ∀ part ∈ operands.filterMap Operand.script?,
      part.Meets (fun v => (part .ret).Yields false (.ok v)) R)
    {failing : Script Note Value} (mem : failing ∈ operands.filterMap Operand.script?)
    (fails : ∀ v, ¬(failing .ret).Yields false (.ok v)) :
    script.Meets (fun _ => False) R := by
  obtain ⟨finish, ⟨leaf⟩ | @⟨p, -, eq⟩⟩ := h
  · cases leaves.symm.trans leaf
  rw [← eq] at parts mem
  obtain ⟨i, rfl⟩ := List.mem_ofFn.1 mem
  have none : p.Meets (fun _ => False) R :=
    ⟨fun j v => (p.part j .ret).Yields false (.ok v),
      fun j => parts _ (List.mem_ofFn.2 ⟨j, rfl⟩), fun values hv => fails _ (hv i)⟩
  refine Script.Meets.check.bind fun _ _ => ?_
  exact none.run.bind fun _ => False.elim

end Together

/-- A chain with operators evaluates its operands together. -/
theorem together_evalChain (first : Operand ν) (steps : List (Text × Operand ν)) (h : steps ≠ []) :
    Together (first :: steps.map Prod.snd) (evalChain first steps) := by
  obtain ⟨step, steps, rfl⟩ := List.exists_cons_of_ne_nil h
  exact .intro _ (Operand.planned_planChain first (step :: steps))

/-! ## The operands of an expression -/

namespace Expr

/-- The first operand of the chain of operations that an expression is, and the operators with the
operands behind them. An expression that is no operation is a chain without operators. -/
def chain : Expr → Expr × List (Text × Expr)
  | binary left op right => (left.chain.1, left.chain.2 ++ [(op, right)])
  | e => (e, [])

/-- The operands that an expression evaluates together, from left to right: those of a chain, the
bounds of a range, the sequence and the neutral element of a `reduce`. -/
def operands : Expr → List Expr
  | binary left op right =>
    (binary left op right).chain.1 :: (binary left op right).chain.2.map Prod.snd
  | range first last => [first, last]
  | reduce source neutral _ _ _ => [source, neutral]
  | _ => []

/-- An expression as an operand. -/
def operand (scope : Scope) (e : Expr) : Operand Note := .ofExpr e scope (e.eval scope)

/-- An expression is evaluated as the chain that it is. -/
theorem evalFirst_eq_evalChain (e : Expr) (scope : Scope) (steps : List (Text × Operand Note)) :
    e.evalFirst scope steps = evalChain (e.chain.1.operand scope)
      (e.chain.2.map (fun step => (step.1, step.2.operand scope)) ++ steps) := by
  induction e generalizing steps with
  | binary left op right ihl _ =>
    rw [evalFirst, ihl, chain, List.map_append, List.append_assoc]
    rfl
  | number | ident | negate | range | map | reduce => rfl

/-- An expression with operands evaluates them together. -/
theorem together_eval {e : Expr} (h : e.operands ≠ []) (scope : Scope) :
    Together (e.operands.map (operand scope)) (e.eval scope) := by
  cases e with
  | number | ident | negate | map => exact absurd rfl h
  | binary left op right =>
    rw [eval, evalFirst_eq_evalChain, List.append_nil, operands, List.map_cons]
    have longer := together_evalChain ((binary left op right).chain.1.operand scope)
      ((binary left op right).chain.2.map fun step => (step.1, step.2.operand scope))
      (by simp [chain])
    simpa only [List.map_map, Function.comp_def] using longer
  | range first last =>
    exact .intro (fun v => Script.ofExcept (rangeBetween v.1 v.2)) (Operand.planned_planPair _ _)
  | reduce source neutral param₁ param₂ body =>
    exact .intro _ (Operand.planned_planPair _ _)

/-- A name without a value is a leaf without one. -/
theorem fault?_operand_of_undefined {scope : Scope} {name : Text} (h : scope.get? name = none) :
    ((ident name).operand scope).fault? = some (.undefined name) := by
  simp only [operand, Operand.ofExpr, Scope.get, h, Operand.fault?]

/-- All other operands are no such leaves. -/
theorem fault?_operand_of_defined {scope : Scope} {e : Expr}
    (h : ∀ name, e = ident name → (scope.get? name).isSome) :
    (e.operand scope).fault? = none := by
  cases e with
  | ident name =>
    obtain ⟨value, eq⟩ := Option.isSome_iff_exists.1 (h name rfl)
    simp only [operand, Operand.ofExpr, Scope.get, eq, Operand.fault?]
  | number | negate | binary | range | map | reduce => rfl

theorem findSome?_fault?_of_defined {scope : Scope} {operands : List Expr}
    (h : ∀ name, ident name ∈ operands → (scope.get? name).isSome) :
    (operands.map (operand scope)).findSome? Operand.fault? = none := by
  rw [List.findSome?_eq_none_iff]
  intro o mem
  obtain ⟨e, inside, rfl⟩ := List.mem_map.1 mem
  exact fault?_operand_of_defined fun name eq => h name (eq ▸ inside)

/-- The scripts of the operands that are no leaves. -/
theorem mem_filterMap_script? {scope : Scope} {operands : List Expr} {part : Script Note Value} :
    part ∈ (operands.map (operand scope)).filterMap Operand.script? ↔
      ∃ e ∈ operands, e.isLeaf = false ∧ part = e.eval scope := by
  have leaf : ∀ e : Expr, (e.operand scope).script? = some part ↔
      e.isLeaf = false ∧ part = e.eval scope := by
    intro e
    cases e <;> simp [operand, Operand.ofExpr, Operand.script?, isLeaf, eq_comm]
  simp only [List.mem_filterMap, List.mem_map, exists_exists_and_eq_and, leaf]

variable {scope : Scope} {desk : Desk Note}

/-- The leftmost name without a value ends the evaluation before any other operand is evaluated. -/
theorem eval_of_undefined {e : Expr} {before after : List Expr} {name : Text}
    (split : e.operands = before ++ ident name :: after)
    (defined : ∀ other, ident other ∈ before → (scope.get? other).isSome)
    (undefined : scope.get? name = none) :
    e.eval scope = (do
      Script.check
      Script.fault (.undefined name)) := by
  refine (together_eval (by simp [split]) scope).eq_fault ?_
  rw [split, List.map_append, List.map_cons, List.findSome?_append,
    findSome?_fault?_of_defined defined, List.findSome?_cons, fault?_operand_of_undefined undefined]
  rfl

/-- An operand that fails is no leaf, if all names among the operands have values. -/
theorem isLeaf_of_failing {o : Expr} (defined : ∀ name, o = ident name → (scope.get? name).isSome)
    {stop : Stop Failure} (h : Run.valueOf scope o = .error stop) : o.isLeaf = false := by
  cases o with
  | number value => cases h.symm.trans (valueOf_eq_ok_iff.2 rfl)
  | ident name =>
    obtain ⟨value, eq⟩ := Option.isSome_iff_exists.1 (defined name rfl)
    have found : (ident name).value scope = .ok value := by simp only [Expr.value, Scope.get, eq]
    cases h.symm.trans (valueOf_eq_ok_iff.2 found)
  | negate | binary | range | map | reduce => rfl

section Failing

variable {e o : Expr} (defined : ∀ name, ident name ∈ e.operands → (scope.get? name).isSome)
  (mem : o ∈ e.operands) {stop : Stop Failure} (failing : Run.valueOf scope o = .error stop)
  (asked : desk.checkpoint.cancelled = false)

include defined mem failing asked

/-- If an operand fails, the evaluation fails as an operand does that is no leaf. -/
theorem exists_failsWith :
    ∃ o ∈ e.operands, o.isLeaf = false ∧ ∃ fault, o.FailsWith scope fault ∧
      (e.report scope desk).outcome = .error (.error (.fault fault)) := by
  have compound := isLeaf_of_failing (fun name eq => defined name (eq ▸ mem)) failing
  have fails : (e.eval scope).Meets (fun _ => False)
      (fun fault => ∃ o ∈ e.operands, o.isLeaf = false ∧ o.FailsWith scope fault) := by
    refine (together_eval (List.ne_nil_of_mem mem) scope).meets_of_failing
      (findSome?_fault?_of_defined defined) (fun part inside => ?_)
      (mem_filterMap_script?.2 ⟨o, mem, compound, rfl⟩) (not_yields_of_valueOf_eq_error failing)
    obtain ⟨o', mem', compound', rfl⟩ := mem_filterMap_script?.1 inside
    exact (o'.meets_failsWith scope).mono (fun _ => id) fun fault h => ⟨o', mem', compound', h⟩
  rcases fails.outcome desk asked with ⟨_, ⟨⟩, _⟩ | ⟨fault, ⟨o', mem', compound', h⟩, eq⟩
  exact ⟨o', mem', compound', fault, h, eq⟩

/-- If an operand fails, nothing but the operands decides on the evaluation. -/
theorem report_eq_of_operands {e' : Expr} (same : e'.operands = e.operands) :
    e'.report scope desk = e.report scope desk := by
  have compound := isLeaf_of_failing (fun name eq => defined name (eq ▸ mem)) failing
  have some : e.operands ≠ [] := List.ne_nil_of_mem mem
  have together' : Together (e.operands.map (operand scope)) (e'.eval scope) :=
    same ▸ together_eval (same ▸ some) scope
  refine run_alike ((together_eval some scope).alike together'
    (findSome?_fault?_of_defined defined) (fun part inside => ?_)
    (mem_filterMap_script?.2 ⟨o, mem, compound, rfl⟩)
    (not_yields_of_valueOf_eq_error failing)) asked
  obtain ⟨o', -, -, rfl⟩ := mem_filterMap_script?.1 inside
  exact o'.natural_eval scope

end Failing

/-! ## Operands that have values -/

/-- An operand that has a value comes to it. -/
theorem meets_operand {o : Expr} {v : Value} (h : Run.valueOf scope o = .ok v) (R : Fault → Prop) :
    (o.operand scope).Meets (· = v) R := by
  have value := valueOf_eq_ok_iff.1 h
  have meets : (o.operand scope).Meets (fun w => o.value scope = .ok w) R :=
    Refined.operand o.refined fun fault raises => absurd raises (not_raises value)
  simpa only [value, Except.ok.injEq, eq_comm] using meets

/-- Operands behind operators that have values come to them. -/
theorem within_planSteps {steps : List (Text × Expr)} {values : List (Text × Value)}
    (h : List.Forall₂ (fun step value => step.1 = value.1 ∧ Run.valueOf scope step.2 = .ok value.2)
      steps values) (R : Fault → Prop) :
    Within (·.Meets (· = values) R) R
      (Operand.planSteps (steps.map fun step => (step.1, step.2.operand scope))) := by
  induction h with
  | nil => exact Plan.Meets.done rfl
  | @cons step value steps values here _ ih =>
    obtain ⟨op, v⟩ := value
    obtain ⟨rfl, value⟩ := here
    refine Operand.within_planSteps_cons (meets_operand value R) ih ?_
    rintro _ _ rfl rfl
    rfl

/-- If all operands of a chain have values, its operators are applied to them from the left. -/
theorem outcome_chain {e : Expr} {first : Value} {values : List (Text × Value)}
    (hfirst : Run.valueOf scope e.chain.1 = .ok first)
    (hsteps : List.Forall₂ (fun step value =>
      step.1 = value.1 ∧ Run.valueOf scope step.2 = .ok value.2) e.chain.2 values)
    (asked : desk.checkpoint.cancelled = false) :
    (e.report scope desk).outcome = .ofResult (applySteps first values) := by
  refine Script.Meets.outcome_eq _ ?_ asked
  rw [eval, evalFirst_eq_evalChain, List.append_nil]
  refine meets_evalChain (meets_operand hfirst _) (within_planSteps hsteps _) ?_
  rintro _ _ rfl rfl
  exact .of_eq (fun _ => id) fun _ => id

/-- If both bounds of a range have values, the range between these is made. -/
theorem outcome_range {first last : Expr} {a b : Value} (ha : Run.valueOf scope first = .ok a)
    (hb : Run.valueOf scope last = .ok b) (asked : desk.checkpoint.cancelled = false) :
    ((range first last).report scope desk).outcome = .ofResult (rangeBetween a b) := by
  refine Script.Meets.outcome_eq _ (Script.Meets.check.bind fun _ _ => ?_) asked
  refine (meets_evalPair (meets_operand ha _) (meets_operand hb _)).bind ?_
  rintro ⟨_, _⟩ ⟨rfl, rfl⟩
  exact .ofExcept (.of_eq (fun _ => id) fun _ => id)

/-- If both arguments of a `reduce` have values, the sequence is looked at before the neutral
element. -/
theorem outcome_reduce_of_refused {source neutral body : Expr} {param₁ param₂ : Text} {s n : Value}
    (hs : Run.valueOf scope source = .ok s) (hn : Run.valueOf scope neutral = .ok n) {fault : Fault}
    (refused : (requireSequence .reduce s >>= fun _ => requireNeutral n) = .error fault)
    (asked : desk.checkpoint.cancelled = false) :
    ((reduce source neutral param₁ param₂ body).report scope desk).outcome =
      .error (.error (.fault fault)) := by
  refine Script.Meets.outcome_eq (.error fault) (Script.Meets.check.bind fun _ _ => ?_) asked
  refine (meets_evalPair (meets_operand hs _) (meets_operand hn _)).bind ?_
  rintro ⟨s', n'⟩ ⟨eq, eq'⟩
  obtain rfl : s' = s := eq
  obtain rfl : n' = n := eq'
  -- A check that refuses gives the fault, and if neither did there would be none.
  refine (Script.Meets.ofExcept (V := fun elements => requireSequence .reduce s' = .ok elements)
    (.of_eq (fun _ => id) fun fault' h => ?_)).bind fun elements helements => ?_
  · rw [h] at refused
    cases refused
    rfl
  refine (Script.Meets.ofExcept (V := fun start => requireNeutral n' = .ok start)
    (.of_eq (fun _ => id) fun fault' h => ?_)).bind fun start hstart => ?_
  · rw [helements, h] at refused
    cases refused
    rfl
  · rw [helements, hstart] at refused
    cases refused

end Expr

/-- An operator one of whose sides is no number ends the application of a chain, if those before it
could be applied. -/
theorem applySteps_of_mismatch {first accumulated value : Value}
    {before after : List (Text × Value)} {op : Text}
    (applied : applySteps first before = .ok accumulated)
    (mismatch : ¬(accumulated.kind = .number ∧ value.kind = .number)) :
    applySteps first (before ++ (op, value) :: after) =
      .error (.operandKinds op accumulated.kind value.kind) := by
  have refused : applyOperator op accumulated value =
      .error (.operandKinds op accumulated.kind value.kind) := by
    rcases accumulated with a | a | a <;> rcases value with b | b | b <;>
      first | rfl | exact absurd ⟨rfl, rfl⟩ mismatch
  rw [applySteps, List.foldlM_append]
  refine bind_eq_error.2 (.inr ⟨accumulated, applied, ?_⟩)
  rw [List.foldlM_cons]
  exact bind_eq_error.2 (.inl refused)

/-! ## The order of evaluation -/

/-- What it means that operands come before operators, in a scope and on a desk. -/
structure OperandsFirst (scope : Scope) (desk : Desk Note) : Prop where
  /-- The leftmost operand that is a name without a value is the fault, and no operand that is no
  leaf is evaluated: the evaluation has no other steps. -/
  undefined : ∀ (e : Expr) before name after, e.operands = before ++ .ident name :: after →
    (∀ other, .ident other ∈ before → (scope.get? other).isSome) → scope.get? name = none →
    e.eval scope = (do
      Script.check
      Script.fault (.undefined name)) ∧
    (e.report scope desk).outcome = .error (.error (.fault (.undefined name)))
  /-- Otherwise, if an operand fails, the fault is that of an operand that is no leaf. What would be
  done with the values does not matter: the evaluation is the same for all expressions with these
  operands. -/
  failing : ∀ (e o : Expr) stop, (∀ name, .ident name ∈ e.operands → (scope.get? name).isSome) →
    o ∈ e.operands → Run.valueOf scope o = .error stop →
    (∃ o ∈ e.operands, o.isLeaf = false ∧ ∃ fault, o.FailsWith scope fault ∧
      (e.report scope desk).outcome = .error (.error (.fault fault))) ∧
    ∀ e' : Expr, e'.operands = e.operands → e'.report scope desk = e.report scope desk
  /-- Otherwise the operators of a chain are applied from the left, and the first of them one of
  whose sides is no number is the fault. -/
  chain : ∀ (e : Expr) first values, Run.valueOf scope e.chain.1 = .ok first →
    List.Forall₂ (fun step value => step.1 = value.1 ∧ Run.valueOf scope step.2 = .ok value.2)
      e.chain.2 values →
    (e.report scope desk).outcome = .ofResult (applySteps first values) ∧
    ∀ before op value after accumulated, values = before ++ (op, value) :: after →
      applySteps first before = .ok accumulated →
      ¬(accumulated.kind = .number ∧ value.kind = .number) →
      (e.report scope desk).outcome =
        .error (.error (.fault (.operandKinds op accumulated.kind value.kind)))
  /-- The bounds of a range are looked at when both have values. -/
  range : ∀ first last a b, Run.valueOf scope first = .ok a → Run.valueOf scope last = .ok b →
    ((Expr.range first last).report scope desk).outcome = .ofResult (rangeBetween a b)
  /-- The arguments of a `reduce` are looked at when both have values: first whether there is a
  sequence, then whether there is a number. -/
  reduce : ∀ source neutral param₁ param₂ body s n, Run.valueOf scope source = .ok s →
    Run.valueOf scope neutral = .ok n →
    (s.kind ≠ .sequence →
      ((Expr.reduce source neutral param₁ param₂ body).report scope desk).outcome =
        .error (.error (.fault (.noSequence .reduce s.kind)))) ∧
    (s.kind = .sequence → n.kind ≠ .number →
      ((Expr.reduce source neutral param₁ param₂ body).report scope desk).outcome =
        .error (.error (.fault (.neutralKind n.kind))))

/-- Operands come before operators, in every scope. -/
theorem operandsFirst (scope : Scope) (desk : Desk Note)
    (asked : desk.checkpoint.cancelled = false) : OperandsFirst scope desk where
  undefined e before name after split defined undefined := by
    have eval := Expr.eval_of_undefined split defined undefined
    refine ⟨eval, ?_⟩
    rw [Expr.report, eval]
    refine Script.Meets.outcome_eq (.error (.undefined name))
      (Script.Meets.check.bind fun _ _ => ?_) asked
    exact .fault rfl
  failing e o stop defined mem failing :=
    ⟨Expr.exists_failsWith defined mem failing asked,
      fun _ same => Expr.report_eq_of_operands defined mem failing asked same⟩
  chain e first values hfirst hsteps := by
    have outcome := Expr.outcome_chain hfirst hsteps asked
    refine ⟨outcome, ?_⟩
    rintro before op value after accumulated rfl applied mismatch
    rw [outcome, applySteps_of_mismatch applied mismatch]
    rfl
  range first last a b ha hb := Expr.outcome_range ha hb asked
  reduce source neutral param₁ param₂ body s n hs hn := by
    refine ⟨fun kind => ?_, fun kind kind' => ?_⟩ <;>
      refine Expr.outcome_reduce_of_refused hs hn ?_ asked
    · rcases s with _ | _ | _
      · rfl
      · rfl
      · exact absurd rfl kind
    · rcases s with _ | _ | elements <;> cases kind
      rcases n with _ | _ | _
      · exact absurd rfl kind'
      · rfl
      · rfl

/-- A sequence plus an operand that fails: with a further name that has no value the fault is that
of the name, and without it the operator is never reached. -/
theorem operandsFirst_of_sequence_and_failing_operand :
    let scope : Scope := [[("a", .sequence [])]]
    let sum : Expr := .binary (.ident "a") "+" (.negate (.ident "x"))
    ((Expr.binary sum "+" (.ident "b")).report scope ⟨.start, []⟩).outcome =
        .error (.error (.fault (.undefined "b"))) ∧
      (Expr.range (.ident "a") (.negate (.ident "x"))).report scope ⟨.start, []⟩ =
        sum.report scope ⟨.start, []⟩ := by
  intro scope sum
  have first := operandsFirst scope ⟨.start, []⟩ rfl
  have fails : Run.valueOf scope (.negate (.ident "x")) =
      .error (.error (.fault (.undefined "x"))) := by
    rw [Run.valueOf, run, State.settle_of_isEnded rfl]
    rfl
  have defined : ∀ name, .ident name ∈ sum.operands → (scope.get? name).isSome := by
    intro name mem
    have mem : .ident name ∈ [Expr.ident "a", .negate (.ident "x")] := mem
    rcases List.mem_cons.1 mem with eq | mem
    · rw [Expr.ident.inj eq]
      rfl
    · cases List.mem_singleton.1 mem
  refine ⟨(first.undefined _ [.ident "a", .negate (.ident "x")] "b" [] rfl ?_ rfl).2,
    (first.failing sum _ _ ?_ ?_ fails).2 _ rfl⟩
  · exact defined
  · exact defined
  · exact List.mem_cons_of_mem _ List.mem_cons_self

end RangeCalc
