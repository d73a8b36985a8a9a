import RangeCalc.Eval.Script

/-!
# Merge trees

A `reduce` whose lambda is a single operation on its two parameters combines its elements as a
balanced tree: the elements are split into halves of equal length, the left one longer by one if need
be, each half is combined, and the two results are combined. Both halves of a large tree are combined
as parts of a join, those of a small one after each other.
-/

namespace RangeCalc

/-- A binary tree with numbers at its leaves. -/
inductive MergeTree
  | leaf (value : Float)
  | node (left right : MergeTree)

namespace MergeTree

/-- The balanced tree over `first :: rest`. -/
def balanced (first : Float) (rest : List Float) : MergeTree :=
  match _h : rest.drop (rest.length / 2) with
  | [] => leaf first
  | middle :: others =>
    node (balanced first (rest.take (rest.length / 2))) (balanced middle others)
termination_by rest.length
decreasing_by
  all_goals
    have length := congrArg List.length _h
    simp only [List.length_drop, List.length_cons] at length
  · simp only [List.length_take]
    omega
  · omega

/-- The numbers at the leaves, from left to right. -/
def leaves : MergeTree → List Float
  | leaf value => [value]
  | node left right => left.leaves ++ right.leaves

/-- How many leaves there are. -/
def size : MergeTree → Nat
  | leaf _ => 1
  | node left right => left.size + right.size

/-- The balanced tree has each number once, in order. -/
theorem leaves_balanced (first : Float) (rest : List Float) :
    (balanced first rest).leaves = first :: rest := by
  fun_induction balanced first rest with
  | case1 first rest h =>
    have short := congrArg List.length h
    simp only [List.length_drop, List.length_nil] at short
    have empty : rest = [] := List.length_eq_zero_iff.1 (by omega)
    simp [leaves, empty]
  | case2 first rest middle others h ihl ihr =>
    rw [leaves, ihl, ihr, List.cons_append, ← h, List.take_append_drop]

/-- The halves of a tree with more leaves are combined as parts of a join. -/
def grain : Nat := 64

/-- Combines the numbers at the leaves. Every node passes a checkpoint, except a leaf right below a
node of two leaves. -/
def combine {ν : Type} (apply : Value → Value → Script ν Value) : MergeTree → Script ν Value
  | leaf value => do
    Script.tick
    return .number value
  | node (leaf a) (leaf b) => do
    Script.tick
    apply (.number a) (.number b)
  | node left right => do
    Script.tick
    let (a, b) ←
      if left.size + right.size ≤ grain then do
        let a ← left.combine apply
        let b ← right.combine apply
        pure (a, b)
      else
        ((Plan.single (left.combine apply)).both (Plan.single (right.combine apply))).run
    apply a b

/-- A node that is not one of two leaves combines its halves first. -/
theorem combine_node {ν : Type} (apply : Value → Value → Script ν Value) {left right : MergeTree}
    (large : ¬∃ a b, left = leaf a ∧ right = leaf b) :
    (node left right).combine apply = (do
      Script.tick
      let (a, b) ←
        if left.size + right.size ≤ grain then do
          let a ← left.combine apply
          let b ← right.combine apply
          pure (a, b)
        else
          ((Plan.single (left.combine apply)).both (Plan.single (right.combine apply))).run
      apply a b) := by
  rw [combine]
  exact fun a b hleft hright => large ⟨a, b, hleft, hright⟩

end MergeTree

end RangeCalc
