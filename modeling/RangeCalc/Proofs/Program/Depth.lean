import RangeCalc.Proofs.Expr.Depth
import RangeCalc.Proofs.Program.Concatenation
import RangeCalc.Proofs.Run.Interruption

/-!
# How deep a program goes

The grammar bounds the levels that are open at once, not the depth of the expressions, and the length
of a program it does not bound at all. But every level adds no more than four to the depth: a sum of
products of powers, one of which is a negated group, goes four expressions deep before it comes to
the sum in the group, which opens the next level. The operands of a chain are parts of the chain as a
whole, so its length does not count. A power to the right of `^` opens a level of its own and adds
one.

* `Phrase.operandBound`, `Phrase.depthBound`: how deep a phrase of some height goes at most;
* `Expr.Derives.shallow`: the accounting, phrase by phrase;
* `Program.depth_le_of_ofText`: the expressions of a program, however long it is.
-/

namespace RangeCalc

/-! ## The accounting -/

namespace Phrase

/-- The bound for the operands of the chain that a phrase of the given height is. -/
def operandBound : Phrase → Nat → Nat
  | sum, height => 4 * height - 1
  | product, height => 4 * height + 2
  | power, height => max 2 (4 * height + 1)
  | primary, height => max 2 (4 * height + 1)

/-- The bound for a phrase of the given height. -/
def depthBound : Phrase → Nat → Nat
  | sum, height => 4 * height
  | product, height => 4 * height + 3
  | power, height => 4 * height + 2
  | primary, height => max 2 (4 * height + 1)

end Phrase

namespace Expr

/-- An expression goes no deeper than phrases of the given height do. -/
structure Shallow (phrase : Phrase) (height : Nat) (e : Expr) : Prop where
  operand_le : ∀ operand ∈ e.chainOperands, operand.depth ≤ phrase.operandBound height
  depth_le : e.depth ≤ phrase.depthBound height

namespace Shallow

variable {phrase phrase₁ phrase₂ : Phrase} {height height₁ height₂ : Nat} {e left right : Expr}
  {op : Text}

theorem mono (h : e.Shallow phrase₁ height₁)
    (le_operand : phrase₁.operandBound height₁ ≤ phrase.operandBound height)
    (le_depth : phrase₁.depthBound height₁ ≤ phrase.depthBound height) :
    e.Shallow phrase height :=
  ⟨fun operand mem => (h.operand_le operand mem).trans le_operand, h.depth_le.trans le_depth⟩

/-- The operands of an operation are those of its left side, and its right side as a whole. -/
theorem binary (first : left.Shallow phrase₁ height₁) (last : right.Shallow phrase₂ height₂)
    (le_left : phrase₁.operandBound height₁ ≤ phrase.operandBound height)
    (le_right : phrase₂.depthBound height₂ ≤ phrase.operandBound height)
    (lt : phrase.operandBound height < phrase.depthBound height) :
    (Expr.binary left op right).Shallow phrase height := by
  have operand_le : ∀ operand ∈ (Expr.binary left op right).chainOperands,
      operand.depth ≤ phrase.operandBound height := by
    rw [chainOperands_binary, List.forall_mem_append, List.forall_mem_singleton]
    exact ⟨fun operand mem => (first.operand_le operand mem).trans le_left,
      last.depth_le.trans le_right⟩
  have parts_le : ∀ part ∈ (Expr.binary left op right).parts,
      part.depth ≤ phrase.operandBound height := operand_le
  exact ⟨operand_le, (depth_le_succ_iff.2 parts_le).trans lt⟩

/-- An expression that is no operation is its own operand. -/
theorem primary (not_binary : e.isBinary = false)
    (parts_le : ∀ part ∈ e.parts, part.depth ≤ max 1 (4 * height)) : e.Shallow .primary height := by
  have depth_le : e.depth ≤ Phrase.primary.depthBound height := by
    refine (depth_le_succ_iff.2 parts_le).trans ?_
    rw [Phrase.depthBound]
    omega
  refine ⟨fun operand mem => ?_, depth_le⟩
  rw [chainOperands_of_not_binary not_binary, List.mem_singleton] at mem
  exact mem ▸ depth_le

/-- The depth of a sum among the parts of an expression. -/
theorem sum_le (h : e.Shallow .sum height₁) (le : height₁ ≤ height) :
    e.depth ≤ max 1 (4 * height) := by
  have depth_le := h.depth_le
  rw [Phrase.depthBound] at depth_le
  omega

end Shallow

/-- The depth of a phrase, by induction on its derivation. -/
theorem Derives.shallow {phrase : Phrase} {height : Nat} {tokens : List Token} {e : Expr}
    (h : Derives phrase height tokens e) : e.Shallow phrase height := by
  -- Both bounds are carried along: what follows an operator has to be shallow as a whole, but what
  -- precedes it is taken apart into its operands.
  induction h with
  | sum _ ih | product _ ih | power _ ih =>
    refine ih.mono ?_ ?_ <;> simp only [Phrase.operandBound, Phrase.depthBound] <;> omega
  | add _ _ _ first last | multiply _ _ _ first last | raise _ _ _ first last =>
    refine first.binary last ?_ ?_ ?_ <;>
      simp only [Phrase.operandBound, Phrase.depthBound] <;> omega
  | group _ _ _ inner =>
    refine inner.mono ?_ ?_ <;> simp only [Phrase.operandBound, Phrase.depthBound] <;> omega
  | number | ident | negateNumber => exact .primary rfl (List.forall_mem_nil _)
  | negateIdent =>
    refine .primary rfl (List.forall_mem_singleton.2 ?_)
    exact (depth_le_succ_iff.2 (List.forall_mem_nil _)).trans (Nat.le_max_left _ _)
  | negateGroup _ _ _ _ inner =>
    exact .primary rfl (List.forall_mem_singleton.2 (inner.sum_le (Nat.le_refl _)))
  | range _ _ _ _ _ lower upper =>
    refine .primary rfl ?_
    simp only [parts, List.forall_mem_cons]
    exact ⟨lower.sum_le (Nat.le_max_left _ _), upper.sum_le (Nat.le_max_right _ _),
      List.forall_mem_nil _⟩
  | map _ _ _ _ _ _ _ _ argument lambda =>
    refine .primary rfl ?_
    simp only [parts, List.forall_mem_cons]
    exact ⟨argument.sum_le (Nat.le_max_left _ _), lambda.sum_le (Nat.le_max_right _ _),
      List.forall_mem_nil _⟩
  | reduce _ _ _ _ _ _ _ _ _ _ _ argument start lambda =>
    refine .primary rfl ?_
    simp only [parts, List.forall_mem_cons]
    exact ⟨argument.sum_le (by omega), start.sum_le (by omega), lambda.sum_le (by omega),
      List.forall_mem_nil _⟩

end Expr

/-! ## Programs -/

/-- The expression of a statement is derived with no more levels than may be open. -/
theorem Stmt.Derives.exists_expr {tokens : List Token} {stmt : Stmt} {e : Expr}
    (h : Stmt.Derives tokens stmt) (evaluates : stmt.expr? = some e) :
    ∃ height ≤ maxLevels, ∃ tokens, Expr.Derives .sum height tokens e := by
  cases h with
  | var _ _ _ bound expr | out _ bound expr =>
    cases evaluates
    exact ⟨_, bound, _, expr⟩
  | print => cases evaluates

/-- The statements of a program are statements of the grammar. -/
theorem Program.Derives.exists_stmt {tokens : List Token} {program : Program} {stmt : Stmt}
    (h : Program.Derives tokens program) (mem : stmt ∈ program) :
    ∃ tokens, Stmt.Derives tokens stmt := by
  induction h with
  | nil => cases mem
  | cons first _ ih =>
    rcases List.mem_cons.1 mem with rfl | mem
    · exact ⟨_, first⟩
    · exact ih mem

namespace Program

/-- The expressions of a program go no deeper than four times the number of levels that may be open,
however long the program is. So if evaluating and writing are cut off there, nothing of them is
missing, whatever stands in the place of what is cut off. -/
theorem depth_le_of_ofText {text : Text} {program : Program} (parsed : ofText text = .ok program) :
    4 * maxLevels = 256 ∧ ∀ stmt ∈ program, ∀ e, stmt.expr? = some e → ∀ sub ∈ e.subexpressions,
      sub.depth ≤ 4 * maxLevels ∧
        (∀ fault scope, sub.evalWithin fault (4 * maxLevels) scope = sub.eval scope) ∧
        ∀ deep, sub.renderWithin deep (4 * maxLevels) = sub.render := by
  refine ⟨rfl, fun stmt mem e evaluates sub inside => ?_⟩
  obtain ⟨_, derives⟩ := (ofText_eq_ok_iff.1 parsed).exists_stmt mem
  obtain ⟨height, le, _, derives⟩ := derives.exists_expr evaluates
  have depth_le : sub.depth ≤ 4 * maxLevels := calc
    sub.depth ≤ e.depth := Expr.depth_le_of_mem_subexpressions inside
    _ ≤ 4 * height := derives.shallow.depth_le
    _ ≤ 4 * maxLevels := Nat.mul_le_mul_left 4 le
  exact ⟨depth_le, fun fault scope => Expr.evalWithin_eq depth_le fault scope,
    fun deep => Expr.renderWithin_eq depth_le deep⟩

/-- Two levels, each with a sum, a product and a negation, are eight expressions deep. The text is
complete if it is cut off at the bound for all programs, and not if it is cut off at seven. -/
theorem depth_le_of_ofText_of_two_levels :
    let e : Expr := .binary (.ident "a") "+" (.binary (.ident "b") "*"
      (.binary (.negate (.binary (.ident "c") "+" (.binary (.ident "d") "*" (.negate (.ident "e")))))
        "^" (.ident "f")))
    ofText "out a + b * -(c + d * -e) ^ f" = .ok [.out e] ∧ e.depth = 8 ∧ e.depth ≤ 256 ∧
      e.renderWithin [] 256 = e.render ∧ e.renderWithin [] 7 ≠ e.render := by
  intro e
  have parsed : ofText "out a + b * -(c + d * -e) ^ f" = .ok [.out e] := by decide +kernel
  have depth : e.depth = 8 := by
    simp [e, Expr.depth_eq, Expr.parts, Expr.chainOperands, Expr.chain]
  obtain ⟨-, bounds⟩ := depth_le_of_ofText parsed
  obtain ⟨le, -, render⟩ := bounds _ List.mem_cons_self e rfl e List.mem_cons_self
  exact ⟨parsed, depth, le, render [], by decide +kernel⟩

end Program

end RangeCalc
