import Mathlib.Data.List.MinMax
import Mathlib.Order.Nat
import RangeCalc.Expr.Render
import RangeCalc.Proofs.Eval.Operands

/-!
# How deep an expression goes

An expression is evaluated by entering its parts, and so is it written down. The parts of a chain of
operations are all of its operands, since a chain is walked along its left side without entering
anything on the way: a long sum goes no deeper than a short one. The depth of an expression is the
number of expressions that are entered inside one another, itself included.

That this is the depth to which evaluating and writing go is said by cutting them off: below so many
levels stands something else, whatever it is, and nothing of it is seen.

* `Expr.parts`, `Expr.depth`: the parts of an expression and its depth;
* `Expr.within`: a function that enters expressions, cut off below some level;
* `Expr.Enters.within_eq`: no such function comes to be cut off below the depth of an expression;
* `Expr.enters_operandLayer`, `Expr.enters_renderLayer`: evaluating and writing are such functions.
-/

namespace RangeCalc

open Loop

namespace Expr

/-! ## Parts -/

/-- The operands of the chain that an expression is, from left to right. -/
def chainOperands (e : Expr) : List Expr := e.chain.1 :: e.chain.2.map Prod.snd

theorem chainOperands_binary (left : Expr) (op : Text) (right : Expr) :
    (binary left op right).chainOperands = left.chainOperands ++ [right] := by
  simp [chainOperands, chain]

/-- An expression that is no operation is its only operand. -/
theorem chainOperands_of_not_binary {e : Expr} (h : e.isBinary = false) : e.chainOperands = [e] := by
  cases e with
  | binary => cases h
  | number | ident | negate | range | map | reduce => rfl

/-- The expressions that are entered to evaluate an expression, or to write it down. -/
def parts : Expr → List Expr
  | number _ => []
  | ident _ => []
  | negate operand => [operand]
  | binary left op right => (binary left op right).chainOperands
  | range first last => [first, last]
  | map source _ body => [source, body]
  | reduce source neutral _ _ body => [source, neutral, body]

theorem sizeOf_le_of_mem_chainOperands {e part : Expr} (h : part ∈ e.chainOperands) :
    sizeOf part ≤ sizeOf e := by
  induction e with
  | binary left op right ihl _ =>
    rw [chainOperands_binary, List.mem_append, List.mem_singleton] at h
    rw [binary.sizeOf_spec]
    rcases h with h | rfl
    · have le := ihl h
      omega
    · omega
  | number | ident | negate | range | map | reduce =>
    exact Nat.le_of_eq (congrArg sizeOf (List.mem_singleton.1 h))

/-- The parts of an expression are smaller than it is. -/
theorem sizeOf_lt_of_mem_parts {e part : Expr} (h : part ∈ e.parts) : sizeOf part < sizeOf e := by
  cases e with
  | number | ident => cases h
  | binary left op right =>
    rw [parts, chainOperands_binary, List.mem_append, List.mem_singleton] at h
    rw [binary.sizeOf_spec]
    rcases h with h | rfl
    · have le := sizeOf_le_of_mem_chainOperands h
      omega
    · omega
  | negate | range | map | reduce =>
    simp only [parts, List.mem_cons, List.not_mem_nil, or_false] at h
    simp only [negate.sizeOf_spec, range.sizeOf_spec, map.sizeOf_spec, reduce.sizeOf_spec]
    rcases h with rfl | rfl | rfl <;> omega

/-- One more than the largest depth of a part. -/
def depth (e : Expr) : Nat := (e.parts.attach.map fun part => depth part.1).foldr max 0 + 1
termination_by sizeOf e
decreasing_by exact sizeOf_lt_of_mem_parts part.2

theorem depth_eq (e : Expr) : e.depth = (e.parts.map depth).foldr max 0 + 1 := by
  rw [depth, List.attach_map_val (f := depth)]

theorem depth_le_succ_iff {e : Expr} {n : Nat} :
    e.depth ≤ n + 1 ↔ ∀ part ∈ e.parts, part.depth ≤ n := by
  rw [depth_eq, Nat.add_le_add_iff_right, ← List.forall_mem_map (P := (· ≤ n))]
  constructor
  · intro le d mem
    exact (List.le_max_of_le mem (Nat.le_refl d)).trans le
  · exact fun le => List.max_le_of_forall_le _ n le

theorem depth_pos (e : Expr) : 0 < e.depth := by
  rw [depth_eq]
  exact Nat.succ_pos _

/-! ## Functions that enter expressions -/

section

variable {α : Type} {deep : α} {layer : (Expr → α) → Expr → α} {f : Expr → α}

/-- What `layer` makes of an expression from what it makes of the parts, for no more than `room`
expressions inside one another. What stands below them is not looked at, but taken to give `deep`. -/
def within (deep : α) (layer : (Expr → α) → Expr → α) : (room : Nat) → Expr → α
  | 0, _ => deep
  | room + 1, e => layer (within deep layer room) e

/-- A function enters expressions: what it gives for one is made by `layer`, which asks for nothing
but what the function gives for the parts. -/
def Enters (f : Expr → α) (layer : (Expr → α) → Expr → α) : Prop :=
  ∀ (enter : Expr → α) (e : Expr), (∀ part ∈ e.parts, enter part = f part) → layer enter e = f e

/-- A function that enters expressions goes no deeper than their depth. -/
theorem Enters.within_eq (h : Enters f layer) {room : Nat} {e : Expr} (le : e.depth ≤ room) :
    within deep layer room e = f e := by
  induction room generalizing e with
  | zero => exact absurd le (Nat.not_le_of_gt e.depth_pos)
  | succ room ih => exact h _ e fun part mem => ih (depth_le_succ_iff.1 le part mem)

end

/-! ## Evaluating -/

/-- An expression as an operand, where `enter` gives the operands that its parts are. -/
def operandLayer (enter : Expr → Scope → Operand Note) : Expr → Scope → Operand Note
  | number value, _ => .leaf (.ok (.number value))
  | ident name, scope => .leaf (scope.get name)
  | negate operand, scope => .compound do
    Script.check
    let value ← (enter operand scope).script
    return value.negate
  | binary left op right, scope =>
    let whole := binary left op right
    .compound (evalChain (enter whole.chain.1 scope)
      (whole.chain.2.map fun step => (step.1, enter step.2 scope)))
  | range first last, scope => .compound do
    Script.check
    let (a, b) ← evalPair (enter first scope) (enter last scope)
    Script.ofExcept (rangeBetween a b)
  | map source param body, scope => .compound do
    Script.check
    let value ← (enter source scope).script
    let elements ← Script.ofExcept (requireSequence .map value)
    evalMap body (fun element => (enter body ([(param, .number element)] :: scope)).script) elements
  | reduce source neutral param₁ param₂ body, scope => .compound do
    Script.check
    let (s, n) ← evalPair (enter source scope) (enter neutral scope)
    let elements ← Script.ofExcept (requireSequence .reduce s)
    let start ← Script.ofExcept (requireNeutral n)
    evalReduce body (body.isMerging param₁ param₂)
      (callLambda body param₁ param₂ scope fun inner => (enter body inner).script) start elements

theorem script_operand (e : Expr) (scope : Scope) : (e.operand scope).script = e.eval scope := by
  cases e <;> rfl

/-- An operation is evaluated as the chain that it is. -/
theorem operand_binary (left : Expr) (op : Text) (right : Expr) (scope : Scope) :
    (binary left op right).operand scope =
      .compound (evalChain ((binary left op right).chain.1.operand scope)
        ((binary left op right).chain.2.map fun step => (step.1, step.2.operand scope))) := by
  show Operand.compound ((binary left op right).evalFirst scope []) = _
  rw [evalFirst_eq_evalChain, List.append_nil]

/-- Evaluating an expression is entering its parts. -/
theorem enters_operandLayer : Enters (fun e scope => e.operand scope) operandLayer := by
  intro enter e same
  funext scope
  cases e with
  | number | ident => rfl
  | negate operand =>
    obtain ⟨hoperand, -⟩ := List.forall_mem_cons.1 same
    simp only [operandLayer, hoperand, script_operand]
    rfl
  | binary left op right =>
    obtain ⟨hfirst, hsteps⟩ := List.forall_mem_cons.1 same
    have steps : (binary left op right).chain.2.map (fun step => (step.1, enter step.2 scope)) =
        (binary left op right).chain.2.map fun step => (step.1, step.2.operand scope) :=
      List.map_congr_left fun step mem => by rw [hsteps step.2 (List.mem_map_of_mem mem)]
    show operandLayer enter (binary left op right) scope = (binary left op right).operand scope
    rw [operand_binary, operandLayer, steps, hfirst]
  | range first last =>
    simp only [parts, List.forall_mem_cons] at same
    obtain ⟨hfirst, hlast, -⟩ := same
    simp only [operandLayer, hfirst, hlast]
    rfl
  | map source param body =>
    simp only [parts, List.forall_mem_cons] at same
    obtain ⟨hsource, hbody, -⟩ := same
    simp only [operandLayer, hsource, hbody, script_operand]
    rfl
  | reduce source neutral param₁ param₂ body =>
    simp only [parts, List.forall_mem_cons] at same
    obtain ⟨hsource, hneutral, hbody, -⟩ := same
    simp only [operandLayer, hsource, hneutral, hbody, script_operand]
    rfl

/-- Evaluates an expression in a scope, except for what stands more than `room` expressions inside
one another. That has the given fault. -/
def evalWithin (fault : Fault) (room : Nat) (e : Expr) (scope : Scope) : Script Note Value :=
  (within (fun _ => .leaf (.error fault)) operandLayer room e scope).script

theorem evalWithin_eq {room : Nat} {e : Expr} (le : e.depth ≤ room) (fault : Fault)
    (scope : Scope) : e.evalWithin fault room scope = e.eval scope := by
  rw [evalWithin, enters_operandLayer.within_eq le, script_operand]

/-! ## Writing down -/

/-- Writes one more operation of a chain behind a text, with parentheses around what is already an
operation. -/
def renderStep (enter : Expr → Text) (left : Text × Bool) (step : Text × Expr) : Text × Bool :=
  ((if left.2 then parenthesised left.1 else left.1) ++ " " ++ step.1 ++ " " ++
    (if step.2.isBinary then parenthesised (enter step.2) else enter step.2), true)

/-- The text of an expression, where `enter` gives the texts of its parts. A chain is written from
its first operand on. -/
def renderLayer (enter : Expr → Text) : Expr → Text
  | number value => Number.plainText value
  | ident name => name
  | negate operand =>
    '-' :: (if operand.isIdent then enter operand else parenthesised (enter operand))
  | binary left op right =>
    ((binary left op right).chain.2.foldl (renderStep enter)
      (enter (binary left op right).chain.1, false)).1
  | range first last => "\x7b" ++ enter first ++ ", " ++ enter last ++ "\x7d"
  | map source param body =>
    "map(" ++ enter source ++ ", " ++ param ++ " -> " ++ enter body ++ ")"
  | reduce source neutral param₁ param₂ body =>
    "reduce(" ++ enter source ++ ", " ++ enter neutral ++ ", " ++ param₁ ++ " " ++ param₂ ++
      " -> " ++ enter body ++ ")"

/-- A chain is written by writing one operation after the other. -/
theorem foldl_renderStep {enter : Expr → Text} {e : Expr}
    (same : ∀ operand ∈ e.chainOperands, enter operand = operand.render) :
    e.chain.2.foldl (renderStep enter) (enter e.chain.1, false) = (e.render, e.isBinary) := by
  induction e with
  | binary left op right ih _ =>
    rw [chainOperands_binary, List.forall_mem_append, List.forall_mem_singleton] at same
    obtain ⟨onLeft, onRight⟩ := same
    rw [chain, List.foldl_append, ih onLeft, List.foldl_cons, List.foldl_nil, renderStep, onRight]
    rfl
  | number | ident | negate | range | map | reduce =>
    exact Prod.ext (same _ (List.mem_singleton_self _)) rfl

/-- Writing an expression down is entering its parts. -/
theorem enters_renderLayer : Enters render renderLayer := by
  intro enter e same
  cases e with
  | number value => exact Eq.refl (Number.plainText value)
  | ident name => exact Eq.refl name
  | negate operand =>
    obtain ⟨hoperand, -⟩ := List.forall_mem_cons.1 same
    show ('-' :: if operand.isIdent then enter operand else parenthesised (enter operand)) = _
    rw [hoperand]
    rfl
  | binary left op right => exact congrArg Prod.fst (foldl_renderStep same)
  | range first last =>
    simp only [parts, List.forall_mem_cons] at same
    obtain ⟨hfirst, hlast, -⟩ := same
    show "\x7b" ++ enter first ++ ", " ++ enter last ++ "\x7d" = _
    rw [hfirst, hlast]
    rfl
  | map source param body =>
    simp only [parts, List.forall_mem_cons] at same
    obtain ⟨hsource, hbody, -⟩ := same
    show "map(" ++ enter source ++ ", " ++ param ++ " -> " ++ enter body ++ ")" = _
    rw [hsource, hbody]
    rfl
  | reduce source neutral param₁ param₂ body =>
    simp only [parts, List.forall_mem_cons] at same
    obtain ⟨hsource, hneutral, hbody, -⟩ := same
    show "reduce(" ++ enter source ++ ", " ++ enter neutral ++ ", " ++ param₁ ++ " " ++ param₂ ++
      " -> " ++ enter body ++ ")" = _
    rw [hsource, hneutral, hbody]
    rfl

/-- The text of an expression, except for what stands more than `room` expressions inside one
another. In its place stands the given text. -/
def renderWithin (deep : Text) (room : Nat) (e : Expr) : Text := within deep renderLayer room e

theorem renderWithin_eq {room : Nat} {e : Expr} (le : e.depth ≤ room) (deep : Text) :
    e.renderWithin deep room = e.render :=
  enters_renderLayer.within_eq le

/-! ## Expressions inside an expression -/

/-- An expression and the expressions that it is made of. -/
def subexpressions : Expr → List Expr
  | number value => [number value]
  | ident name => [ident name]
  | negate operand => negate operand :: operand.subexpressions
  | binary left op right => binary left op right :: (left.subexpressions ++ right.subexpressions)
  | range first last => range first last :: (first.subexpressions ++ last.subexpressions)
  | map source param body =>
    map source param body :: (source.subexpressions ++ body.subexpressions)
  | reduce source neutral param₁ param₂ body =>
    reduce source neutral param₁ param₂ body ::
      (source.subexpressions ++ (neutral.subexpressions ++ body.subexpressions))

/-- A part goes less deep. -/
theorem depth_lt_of_mem_parts {e part : Expr} (h : part ∈ e.parts) : part.depth < e.depth := by
  obtain ⟨n, eq⟩ := Nat.exists_eq_succ_of_ne_zero e.depth_pos.ne'
  rw [eq]
  exact Nat.lt_succ_of_le (depth_le_succ_iff.1 (Nat.le_of_eq eq) part h)

/-- The left side of an operation goes no deeper: it is an operand, or its operands are among those
of the operation. -/
theorem depth_left_le (left : Expr) (op : Text) (right : Expr) :
    left.depth ≤ (binary left op right).depth := by
  cases left with
  | binary left' op' right' =>
    obtain ⟨n, eq⟩ := Nat.exists_eq_succ_of_ne_zero
      (binary (binary left' op' right') op right).depth_pos.ne'
    rw [eq, depth_le_succ_iff]
    intro part mem
    refine depth_le_succ_iff.1 (Nat.le_of_eq eq) part ?_
    rw [parts, chainOperands_binary]
    exact List.mem_append_left _ mem
  | number | ident | negate | range | map | reduce =>
    exact Nat.le_of_lt (depth_lt_of_mem_parts List.mem_cons_self)

/-- What an expression is made of goes no deeper than it does. -/
theorem depth_le_of_mem_subexpressions {e sub : Expr} (h : sub ∈ e.subexpressions) :
    sub.depth ≤ e.depth := by
  have of_part {e : Expr} (part : Expr) (mem : part ∈ e.parts) (le : sub.depth ≤ part.depth) :
      sub.depth ≤ e.depth := Nat.le_trans le (Nat.le_of_lt (depth_lt_of_mem_parts mem))
  induction e with
  | number | ident =>
    exact Nat.le_of_eq (congrArg depth (List.mem_singleton.1 h))
  | negate operand ih =>
    rcases List.mem_cons.1 h with rfl | h
    · exact Nat.le_refl _
    · exact of_part operand List.mem_cons_self (ih h)
  | binary left op right ihl ihr =>
    simp only [subexpressions, List.mem_cons, List.mem_append] at h
    rcases h with rfl | h | h
    · exact Nat.le_refl _
    · exact (ihl h).trans (depth_left_le left op right)
    · refine of_part right ?_ (ihr h)
      rw [parts, chainOperands_binary]
      exact List.mem_append_right _ (List.mem_singleton_self _)
  | range first last ihf ihl =>
    simp only [subexpressions, List.mem_cons, List.mem_append] at h
    rcases h with rfl | h | h
    · exact Nat.le_refl _
    · exact of_part first (by simp [parts]) (ihf h)
    · exact of_part last (by simp [parts]) (ihl h)
  | map source param body ihs ihb =>
    simp only [subexpressions, List.mem_cons, List.mem_append] at h
    rcases h with rfl | h | h
    · exact Nat.le_refl _
    · exact of_part source (by simp [parts]) (ihs h)
    · exact of_part body (by simp [parts]) (ihb h)
  | reduce source neutral param₁ param₂ body ihs ihn ihb =>
    simp only [subexpressions, List.mem_cons, List.mem_append] at h
    rcases h with rfl | h | h | h
    · exact Nat.le_refl _
    · exact of_part source (by simp [parts]) (ihs h)
    · exact of_part neutral (by simp [parts]) (ihn h)
    · exact of_part body (by simp [parts]) (ihb h)

end Expr

end RangeCalc
