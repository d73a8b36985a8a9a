import RangeCalc.Scope
import RangeCalc.Eval.Operator
import RangeCalc.Eval.MergeTree

/-!
# Evaluation

An expression is evaluated in a scope, by a script. A chain of binary operations is taken as a whole:
all its operands are evaluated, then the operators are applied from the left. Operands that do not
depend on each other are evaluated together, leaves first, and so are the two bounds of a range and
the two arguments of `reduce`.

`map` evaluates its lambda for all elements before it looks at any result. If the lambda's body is a
leaf the elements are taken one after the other, and otherwise in batches, the elements of a batch as
parts of a join. `reduce` combines as a merge tree if its lambda is a single operation on its
parameters, and by a fold from the left otherwise.

* `Expr.eval` is the script of an expression.
-/

namespace RangeCalc

variable {ν : Type}

/-- An operand of a chain: its result, or the script that will give it. -/
inductive Operand (ν : Type)
  | leaf (result : Except Fault Value)
  | compound (script : Script ν Value)

namespace Operand

/-- The operand that an expression is, given its script. -/
def ofExpr (e : Expr) (scope : Scope) (script : Script ν Value) : Operand ν :=
  match e with
  | .number value => leaf (.ok (.number value))
  | .ident name => leaf (scope.get name)
  | _ => compound script

/-- An operand on its own. -/
def script : Operand ν → Script ν Value
  | leaf result => Script.ofExcept result
  | compound script => script

/-- The plan for an operand. A leaf is evaluated at once. -/
def plan : Operand ν → Except Fault (Plan ν Value)
  | leaf result => result.map Plan.done
  | compound script => .ok (Plan.single script)

/-- The plan for two operands. -/
def planPair (a b : Operand ν) : Except Fault (Plan ν (Value × Value)) := do
  let p ← a.plan
  let q ← b.plan
  return p.both q

/-- The plan for operands that stand behind operators. -/
def planSteps : List (Text × Operand ν) → Except Fault (Plan ν (List (Text × Value)))
  | [] => .ok (Plan.done [])
  | (op, operand) :: steps => do
    let p ← operand.plan
    let q ← planSteps steps
    return (p.both q).map fun (value, values) => (op, value) :: values

/-- The plan for a chain. -/
def planChain (first : Operand ν) (steps : List (Text × Operand ν)) :
    Except Fault (Plan ν (Value × List (Text × Value))) := do
  let p ← first.plan
  let q ← planSteps steps
  return p.both q

end Operand

/-- Applies the operators of a chain from the left. -/
def applySteps (first : Value) (steps : List (Text × Value)) : Except Fault Value :=
  steps.foldlM (fun left (op, right) => applyOperator op left right) first

/-- Evaluates a chain of operations. A chain without operators is its only operand. -/
def evalChain (first : Operand ν) : List (Text × Operand ν) → Script ν Value
  | [] => first.script
  | steps => do
    Script.check
    let plan ← Script.ofExcept (first.planChain steps)
    let (value, values) ← plan.run
    Script.ofExcept (applySteps value values)

/-- Evaluates two operands together. -/
def evalPair (a b : Operand ν) : Script ν (Value × Value) := do
  let plan ← Script.ofExcept (a.planPair b)
  plan.run

/-- How many elements `map` hands out at once. -/
def batchSize : Nat := 1024

/-- The elements in batches of `size`; the first `skip` of them belong to the batch before. -/
def batchesFrom {β : Type} (size : Nat) : (skip : Nat) → List β → List (List β)
  | _, [] => []
  | skip + 1, _ :: items => batchesFrom size skip items
  | 0, item :: items => (item :: items.take (size - 1)) :: batchesFrom size (size - 1) items

/-- The elements in batches of `size`, the last one maybe shorter. -/
def batches {β : Type} (size : Nat) (items : List β) : List (List β) := batchesFrom size 0 items

/-- Passing over elements is dropping them. -/
theorem batchesFrom_skip {β : Type} (size skip : Nat) (items : List β) :
    batchesFrom size skip items = batchesFrom size 0 (items.drop skip) := by
  induction items generalizing skip with
  | nil => simp [batchesFrom]
  | cons item items ih =>
    cases skip with
    | zero => rfl
    | succ skip => rw [batchesFrom, ih, List.drop_succ_cons]

/-- The batches hold each element once, in order. -/
theorem flatten_batches {β : Type} (size : Nat) :
    ∀ items : List β, (batches size items).flatten = items
  | [] => rfl
  | item :: items => by
    have later := flatten_batches size (items.drop (size - 1))
    rw [batches] at later
    rw [batches, batchesFrom, batchesFrom_skip, List.flatten_cons, later, List.cons_append,
      List.take_append_drop]
termination_by items => items.length
decreasing_by simp only [List.length_drop, List.length_cons]; omega

/-- The sequence a combinator works on. -/
def requireSequence (combinator : Combinator) : Value → Except Fault (List Float)
  | .sequence elements => .ok elements
  | value => .error (.noSequence combinator value.kind)

/-- The neutral element of a `reduce`. -/
def requireNeutral : Value → Except Fault Float
  | .number value => .ok value
  | value => .error (.neutralKind value.kind)

/-- The number that a lambda returned. -/
def requireNumber (body : Expr) : Value → Except Fault Float
  | .number value => .ok value
  | value => .error (.lambdaKind body value)

/-- The integer-valued number that a lambda of `map` returned. -/
def requireElement (body : Expr) (result : Value) : Except Fault Float := do
  let value ← requireNumber body result
  if Number.isInteger value then return value else throw (.lambdaFraction body value)

/-- The results of a lambda for all elements. -/
def mapResults (body : Expr) (apply : Float → Script ν Value) (elements : List Float) :
    Script ν (List Value) :=
  if body.isLeaf then
    Script.each (fun element => do
      Script.tick
      apply element) elements
  else do
    let results ← Script.each (fun (batch : List Float) => do
      Script.tick
      let values ← Script.join batch.length fun i => apply (batch.get i)
      return List.ofFn values) (batches batchSize elements)
    return results.flatten

/-- Applies a lambda to every element. -/
def evalMap (body : Expr) (apply : Float → Script ν Value) (elements : List Float) :
    Script ν Value := do
  let results ← mapResults body apply elements
  let mapped ← Script.ofExcept (results.mapM (requireElement body))
  return .sequence mapped

/-- Combines the elements from the left, passing a checkpoint before each. -/
def foldElements (apply : Value → Value → Script ν Value) : Value → List Float → Script ν Value
  | accumulated, [] => pure accumulated
  | accumulated, element :: elements => do
    Script.tick
    let result ← apply accumulated (.number element)
    foldElements apply result elements

/-- Combines a neutral element and the elements of a sequence. -/
def evalReduce (body : Expr) (merging : Bool) (apply : Value → Value → Script Note Value)
    (neutral : Float) (elements : List Float) : Script Note Value := do
  Script.note ⟨elements.length, merging, body⟩
  if merging then (MergeTree.balanced neutral elements).combine apply
  else foldElements apply (.number neutral) elements

/-- Calls a two-parameter lambda, which has to return a number. If the parameters have one name, it
means the second. -/
def callLambda (body : Expr) (param₁ param₂ : Text) (scope : Scope)
    (evalBody : Scope → Script ν Value) (a b : Value) : Script ν Value := do
  let result ← evalBody ([(param₂, b), (param₁, a)] :: scope)
  let value ← Script.ofExcept (requireNumber body result)
  return .number value

/-- Evaluates an expression that is the first operand of a chain with the given further operands. -/
def Expr.evalFirst : Expr → Scope → List (Text × Operand Note) → Script Note Value
  | number value, _, steps => evalChain (.leaf (.ok (.number value))) steps
  | ident name, scope, steps => evalChain (.leaf (scope.get name)) steps
  | binary left op right, scope, steps =>
    left.evalFirst scope ((op, .ofExpr right scope (right.evalFirst scope [])) :: steps)
  | negate operand, scope, steps =>
    evalChain (.compound do
      Script.check
      let value ← operand.evalFirst scope []
      return value.negate) steps
  | range first last, scope, steps =>
    evalChain (.compound do
      Script.check
      let (a, b) ← evalPair (.ofExpr first scope (first.evalFirst scope []))
        (.ofExpr last scope (last.evalFirst scope []))
      Script.ofExcept (rangeBetween a b)) steps
  | map source param body, scope, steps =>
    evalChain (.compound do
      Script.check
      let value ← source.evalFirst scope []
      let elements ← Script.ofExcept (requireSequence .map value)
      evalMap body (fun element => body.evalFirst ([(param, .number element)] :: scope) [])
        elements) steps
  | reduce source neutral param₁ param₂ body, scope, steps =>
    evalChain (.compound do
      Script.check
      let (s, n) ← evalPair (.ofExpr source scope (source.evalFirst scope []))
        (.ofExpr neutral scope (neutral.evalFirst scope []))
      let elements ← Script.ofExcept (requireSequence .reduce s)
      let start ← Script.ofExcept (requireNeutral n)
      evalReduce body (body.isMerging param₁ param₂)
        (callLambda body param₁ param₂ scope fun inner => body.evalFirst inner []) start
        elements) steps

/-- Evaluates an expression in a scope. -/
def Expr.eval (e : Expr) (scope : Scope) : Script Note Value := e.evalFirst scope []

end RangeCalc
