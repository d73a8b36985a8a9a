import RangeCalc.Proofs.Eval.Invariant
import RangeCalc.Proofs.Eval.Natural
import RangeCalc.Proofs.Loop.Tally

/-!
# Reductions as merge trees

A `reduce` whose lambda is a single operation on its parameters combines the neutral element and the
elements along a balanced tree. Whether it does is decided by the look of the lambda alone, and this
is safe: the parameters are the nearest names, so the lambda does the same in every scope, and with
two numbers it never fails.

* `MergeTree.span`: the tree over a span of indices, split in the middle. The tree of a reduction is
  of this kind (`MergeTree.balanced_eq_ofElements`).
* `MergeTree.fold_span`, `foldl_eq_of_exact`: if reassociation is exact, tree and fold from the left
  have the same value.
* `Script.Tallies`: scripts that have a value and whose notes are counted. A tree is combined with
  as many calls as it has nodes (`MergeTree.tallies_combine`), in place or handed out.
* `Expr.Operates`: what is needed of a lambda; `exists_operates`: the syntactic condition gives it.
* `mergesAsTree`: what a reduction by a merge tree comes to.
-/

namespace RangeCalc

open Loop Result

variable {ν β γ : Type}

/-! ## Trees over spans of indices -/

namespace MergeTree

/-- The tree over the numbers with indices from `lo` to `hi`, which splits them in the middle. -/
def span (value : Nat → Float) (lo hi : Nat) : MergeTree :=
  if lo < hi then
    node (span value lo (lo + (hi - lo) / 2)) (span value (lo + (hi - lo) / 2 + 1) hi)
  else leaf (value lo)
termination_by hi - lo
decreasing_by all_goals omega

/-- The balanced tree over a list is the tree over its indices. -/
theorem balanced_eq_span {first : Float} {rest : List Float} (value : Nat → Float) (lo : Nat)
    (h : ∀ i ≤ rest.length, (first :: rest)[i]? = some (value (lo + i))) :
    balanced first rest = span value lo (lo + rest.length) := by
  fun_induction balanced first rest generalizing lo with
  | case1 first rest short =>
    have empty := congrArg List.length short
    rw [List.length_drop, List.length_nil] at empty
    have none : rest.length = 0 := by omega
    have first_eq : first = value lo := by simpa using h 0 (Nat.zero_le _)
    rw [span, if_neg (by omega), first_eq]
  | case2 first rest middle others split ihl ihr =>
    have length := congrArg List.length split
    rw [List.length_drop, List.length_cons] at length
    have half : (rest.take (rest.length / 2)).length = rest.length / 2 := by
      rw [List.length_take]
      omega
    -- The left half starts where the list does, and the right half right behind it.
    have whole : span value lo (lo + rest.length) = node (span value lo (lo + rest.length / 2))
        (span value (lo + rest.length / 2 + 1) (lo + rest.length)) := by
      rw [span, if_pos (by omega), Nat.add_sub_cancel_left]
    rw [ihl lo, ihr (lo + rest.length / 2 + 1), whole, half]
    · congr 2
      omega
    · intro i hi
      have cut := h (rest.length / 2 + 1 + i) (by omega)
      rw [← split, List.getElem?_drop]
      rw [Nat.add_right_comm, List.getElem?_cons_succ] at cut
      rw [cut]
      congr 2
      omega
    · intro i hi
      rw [half] at hi
      rw [← h i (by omega), ← List.take_succ_cons, List.getElem?_take_of_lt (by omega)]

/-- The value of a tree. -/
def fold (g : Float → Float → Float) : MergeTree → Float
  | leaf value => value
  | node left right => g (left.fold g) (right.fold g)

/-- How often two values are combined. -/
def calls : MergeTree → Nat
  | leaf _ => 0
  | node left right => left.calls + right.calls + 1

/-- The calls leave one of the numbers at the leaves. -/
theorem calls_add_one (t : MergeTree) : t.calls + 1 = t.leaves.length := by
  induction t with
  | leaf value => rfl
  | node left right ihl ihr =>
    rw [calls, leaves, List.length_append, ← ihl, ← ihr]
    omega

/-- A balanced tree has one call for every element behind the first. -/
theorem calls_balanced (first : Float) (rest : List Float) :
    (balanced first rest).calls = rest.length := by
  have calls := (balanced first rest).calls_add_one
  rw [leaves_balanced, List.length_cons] at calls
  omega

/-- If reassociation is exact, a tree over a span has the value of the span. -/
theorem fold_span {g : Float → Float → Float} {value : Nat → Float} {v : Nat → Nat → Float}
    {n : Nat} (single : ∀ i ≤ n, v i i = value i)
    (combined : ∀ i k j, i ≤ k → k < j → j ≤ n → g (v i k) (v (k + 1) j) = v i j) {lo hi : Nat}
    (le : lo ≤ hi) (bound : hi ≤ n) : (span value lo hi).fold g = v lo hi := by
  fun_induction span value lo hi with
  | case1 lo hi lt ihl ihr =>
    rw [fold, ihl (by omega) (by omega), ihr (by omega) bound]
    exact combined _ _ _ (by omega) (by omega) bound
  | case2 lo hi lt =>
    obtain rfl : lo = hi := by omega
    rw [fold, single lo bound]

end MergeTree

/-- If reassociation is exact, a fold from the left has the value of the whole. -/
theorem foldl_eq_of_exact {g : Float → Float → Float} {start : Float} {elements : List Float}
    {v : Nat → Nat → Float}
    (single : ∀ i ≤ elements.length, (start :: elements)[i]? = some (v i i))
    (combined : ∀ i k j, i ≤ k → k < j → j ≤ elements.length →
      g (v i k) (v (k + 1) j) = v i j) :
    elements.foldl g start = v 0 elements.length := by
  have upTo : ∀ j ≤ elements.length, (elements.take j).foldl g start = v 0 j := by
    intro j hj
    induction j with
    | zero => simpa using single 0 hj
    | succ j ih =>
      have element : elements[j] = v (j + 1) (j + 1) := by
        have here := single (j + 1) hj
        rwa [List.getElem?_cons_succ, List.getElem?_eq_getElem hj, Option.some.injEq] at here
      rw [List.take_succ_eq_append_getElem hj, List.foldl_append, ih (by omega)]
      exact element ▸ combined 0 j (j + 1) (Nat.zero_le j) j.lt_succ_self hj
  simpa using upTo elements.length le_rfl

/-! ## Scripts whose notes are counted -/

/-- Left alone, the script gives a value with `V`, and the notes on its way have weight `m`. -/
def Script.Tallies (weight : ν → Nat) (m : Nat) (V : β → Prop) (script : Script ν β) : Prop :=
  ∀ (k : Nat) (W : Value → Prop) (next : β → Evaluation ν),
    (∀ b, V b → (next b).Tallies weight k W) → (script next).Tallies weight (m + k) W

namespace Script.Tallies

variable {weight : ν → Nat} {m n : Nat} {V : β → Prop} {W : γ → Prop}

theorem pure {b : β} (h : V b) : (Pure.pure b : Script ν β).Tallies weight 0 V := by
  intro k W next later
  rw [Nat.zero_add]
  exact later b h

theorem bind {script : Script ν β} {f : β → Script ν γ} (h : script.Tallies weight m V)
    (hf : ∀ b, V b → (f b).Tallies weight n W) : (script >>= f).Tallies weight (m + n) W := by
  intro k W' next later
  rw [Nat.add_assoc]
  exact h (n + k) W' _ fun b hb => hf b hb k W' next later

/-- A script that leaves no notes to be counted before another. -/
theorem silent {script : Script ν β} {f : β → Script ν γ} (h : script.Tallies weight 0 V)
    (hf : ∀ b, V b → (f b).Tallies weight n W) : (script >>= f).Tallies weight n W :=
  Nat.zero_add n ▸ h.bind hf

theorem check : (Script.check : Script ν Unit).Tallies weight 0 fun _ => True := by
  intro k W next later
  rw [Nat.zero_add]
  exact .poll (later () trivial)

theorem tick : (Script.tick : Script ν Unit).Tallies weight 0 fun _ => True := by
  have pass : Script.Tallies weight 0 (fun _ => True)
      (fun next => .tick fun _ => next () : Script ν Unit) := by
    intro k W next later
    rw [Nat.zero_add]
    exact .tick (later () trivial)
  exact check.silent fun _ _ => pass.silent fun _ _ => check

theorem note (weight : ν → Nat) (message : ν) :
    (Script.note message).Tallies weight (weight message) fun _ => True :=
  fun _ _ _ later => .note (later () trivial)

/-- A script that stands alone as an action. -/
theorem alone {script : Script ν Value} {V : Value → Prop} (h : script.Tallies weight m V) :
    (script .ret).Tallies weight m V :=
  h 0 V .ret fun _ => .ret

/-- Two scripts that are handed out. -/
theorem pair {a b : Script ν Value} {V W : Value → Prop} (ha : a.Tallies weight m V)
    (hb : b.Tallies weight n W) :
    ((Plan.single a).both (Plan.single b)).run.Tallies weight (m + n)
      fun v => V v.1 ∧ W v.2 := by
  intro k W' next later
  have sum : ∑ i : Fin 2, ![m, n] i = m + n := Fin.sum_univ_two _
  rw [← sum]
  refine .join ![m, n] ![V, W] (fun i => ?_) fun values hvalues => later _ ⟨?_, ?_⟩
  · match i with
    | 0 => exact ha.alone
    | 1 => exact hb.alone
  · exact hvalues 0
  · exact hvalues 1

end Script.Tallies

/-- A merge tree, with halves that are combined in place or handed out: there are as many calls as
the tree has nodes. -/
theorem MergeTree.tallies_combine {weight : ν → Nat} {apply : Value → Value → Script ν Value}
    {g : Float → Float → Float} {m : Nat}
    (hcall : ∀ a b, (apply (.number a) (.number b)).Tallies weight m (· = .number (g a b)))
    (t : MergeTree) :
    (t.combine apply).Tallies weight (t.calls * m) (· = .number (t.fold g)) := by
  fun_induction combine apply t with
  | case1 value =>
    rw [calls, Nat.zero_mul]
    exact Script.Tallies.tick.silent fun _ _ => .pure rfl
  | case2 a b =>
    rw [calls, calls, calls, Nat.zero_add, Nat.one_mul]
    exact Script.Tallies.tick.silent fun _ _ => hcall a b
  | case3 left right _ ihl ihr =>
    rw [calls, Nat.add_one_mul, Nat.add_mul]
    refine Script.Tallies.tick.silent fun _ _ => ?_
    dsimp only
    split
    · rw [Nat.add_assoc]
      refine ihl.bind fun a ha => ihr.bind fun b hb => ?_
      rw [ha, hb]
      exact hcall _ _
    · refine (ihl.pair ihr).bind fun v hv => ?_
      rw [hv.1, hv.2]
      exact hcall _ _

/-! ## Lambdas that are a single operation -/

/-- The body of a lambda is about to be evaluated. -/
def Sight.isEntered : Sight → Bool
  | entered _ => true
  | _ => false

/-- The weight by which evaluations of the bodies of lambdas are counted. -/
def entries : Watched → Nat
  | .inl _ => 0
  | .inr sight => if sight.isEntered then 1 else 0

/-- A call of a two-parameter lambda. -/
abbrev Expr.call (body : Expr) (param₁ param₂ : Text) (scope : Scope) :
    Value → Value → Script Note Value :=
  callLambda body param₁ param₂ scope fun inner => body.evalFirst inner []

/-- A call of a two-parameter lambda, in sight. -/
abbrev Expr.watchCall (body : Expr) (param₁ param₂ : Text) (scope : Scope) :
    Value → Value → Script Watched Value :=
  callLambda body param₁ param₂ scope fun inner => do
    Script.see (.entered inner)
    body.watchFirst inner []

section Operation

variable {param₁ param₂ left op right : Text} {operation : Float → Float → Float}

/-- What a name stands for among the parameters of a lambda that is called with two numbers. If both
parameters have the name, it is the second number. -/
def argument (param₂ name : Text) (a b : Float) : Float := if name = param₂ then b else a

theorem get_argument {name : Text} (h : name = param₁ ∨ name = param₂) (scope : Scope)
    (a b : Float) :
    Scope.get ([(param₂, .number b), (param₁, .number a)] :: scope) name =
      .ok (.number (argument param₂ name a b)) := by
  by_cases second : name = param₂
  · simp [Scope.get, Scope.get?, List.lookup, argument, second]
  · obtain rfl := h.resolve_right second
    have nearer : (name == param₂) = false := beq_eq_false_iff_ne.2 second
    simp [Scope.get, Scope.get?, List.lookup, argument, second, nearer]

theorem applyOperator_number (known : arithmetic? op = some operation) (a b : Float) :
    applyOperator op (.number a) (.number b) = .ok (.number (operation a b)) := by
  rw [applyOperator, known]

theorem applySteps_number (known : arithmetic? op = some operation) (a b : Float) :
    applySteps (.number a) [(op, .number b)] = .ok (.number (operation a b)) :=
  bind_eq_ok.2 ⟨_, applyOperator_number known a b, rfl⟩

/-- What the lambda does with two numbers. -/
def operationOn (param₂ left right : Text) (operation : Float → Float → Float) (a b : Float) :
    Float :=
  operation (argument param₂ left a b) (argument param₂ right a b)

variable (known : arithmetic? op = some operation) (hleft : left = param₁ ∨ left = param₂)
  (hright : right = param₁ ∨ right = param₂) (scope : Scope) (a b : Float)

include known hleft hright

/-- The value of a single operation on the parameters of a lambda. -/
theorem value_operation :
    (Expr.binary (.ident left) op (.ident right)).value
        ([(param₂, .number b), (param₁, .number a)] :: scope) =
      .ok (.number (operationOn param₂ left right operation a b)) := by
  simp only [Expr.value, get_argument hleft, get_argument hright]
  exact applyOperator_number known _ _

/-- The steps of a watched call: it enters the body, finds its two operands and applies the
operator. -/
theorem watchCall_operation :
    (Expr.binary (.ident left) op (.ident right)).watchCall param₁ param₂ scope (.number a)
        (.number b) = (do
      Script.see (.entered ([(param₂, .number b), (param₁, .number a)] :: scope))
      Script.check
      Script.see (.returned (.number (argument param₂ left a b)))
      Script.see (.returned (.number (argument param₂ right a b)))
      Script.see (.applied op (.number (argument param₂ left a b))
        (.number (argument param₂ right a b)))
      Script.returning (.number (operationOn param₂ left right operation a b))) := by
  change (do
    Script.see (.entered _)
    let result ← watchChain (.leaf (Scope.get _ left)) [(op, .leaf (Scope.get _ right))]
    let value ← Script.ofExcept (requireNumber _ result)
    return Value.number value) = (_ : Script Watched Value)
  rw [get_argument hleft, get_argument hright]
  change (do
    Script.see (.entered _)
    Script.check
    Script.see (.returned _)
    Script.see (.returned _)
    Script.see (.applied op _ _)
    let result ← Script.ofExcept (applyOperator op (.number _) (.number _))
    let result ← Script.returning result
    let value ← Script.ofExcept (requireNumber _ result)
    return Value.number value) = (_ : Script Watched Value)
  rw [applyOperator_number known]
  rfl

/-- The steps of a call, unwatched. -/
theorem call_operation :
    (Expr.binary (.ident left) op (.ident right)).call param₁ param₂ scope (.number a)
        (.number b) = (do
      Script.check
      return .number (operationOn param₂ left right operation a b)) := by
  change (do
    let result ← evalChain (.leaf (Scope.get _ left)) [(op, .leaf (Scope.get _ right))]
    let value ← Script.ofExcept (requireNumber _ result)
    return Value.number value) = (_ : Script Note Value)
  rw [get_argument hleft, get_argument hright]
  change (do
    Script.check
    let result ← Script.ofExcept (applySteps (.number _) [(op, .number _)])
    let value ← Script.ofExcept (requireNumber _ result)
    return Value.number value) = (_ : Script Note Value)
  rw [applySteps_number known]
  rfl

/-- Such a lambda is entered once in a call. -/
theorem tallies_operation :
    ((Expr.binary (.ident left) op (.ident right)).watchCall param₁ param₂ scope (.number a)
      (.number b)).Tallies entries 1
      (· = .number (operationOn param₂ left right operation a b)) := by
  have entered : ∀ scope, (Script.see (.entered scope)).Tallies entries 1 fun _ => True :=
    fun scope => Script.Tallies.note entries (.inr (.entered scope))
  have other : ∀ sight : Sight, sight.isEntered = false →
      (Script.see sight).Tallies entries 0 fun _ => True := by
    intro sight other
    have weight : entries (.inr sight) = 0 := by rw [entries, other, if_neg Bool.false_ne_true]
    exact weight ▸ Script.Tallies.note entries (.inr sight)
  rw [watchCall_operation known hleft hright]
  refine (entered _).bind (n := 0) fun _ _ => Script.Tallies.check.silent fun _ _ => ?_
  refine (other _ rfl).silent fun _ _ => (other _ rfl).silent fun _ _ => ?_
  exact (other _ rfl).silent fun _ _ => (other _ rfl).silent fun _ _ => .pure rfl

/-- Watching does not change the call. -/
theorem watches_operation :
    ((Expr.binary (.ident left) op (.ident right)).watchCall param₁ param₂ scope (.number a)
      (.number b)).Watches (fun _ => True) (fun _ => True) Value.IsNumber
      ((Expr.binary (.ident left) op (.ident right)).call param₁ param₂ scope (.number a)
        (.number b)) := by
  rw [watchCall_operation known hleft hright, call_operation known hleft hright]
  refine .see trivial (Script.Watches.check.bind fun _ _ => ?_)
  exact .see trivial (.see trivial (.see trivial (.returning trivial trivial)))

end Operation

/-- A lambda that does `g` with the numbers it is called with, whatever the scope around it. -/
structure Expr.Operates (body : Expr) (param₁ param₂ : Text) (g : Float → Float → Float) :
    Prop where
  value : ∀ scope a b, body.value ([(param₂, .number b), (param₁, .number a)] :: scope) =
    .ok (.number (g a b))
  tallies : ∀ scope a b, (body.watchCall param₁ param₂ scope (.number a) (.number b)).Tallies
    entries 1 (· = .number (g a b))
  watches : ∀ scope a b, (body.watchCall param₁ param₂ scope (.number a) (.number b)).Watches
    (fun _ => True) (fun _ => True) Value.IsNumber
    (body.call param₁ param₂ scope (.number a) (.number b))

/-- A lambda under which `reduce` combines as a merge tree does the same everywhere: both operands
of its body are parameters, and no scope hides a parameter. -/
theorem exists_operates {body : Expr} {param₁ param₂ : Text}
    (merging : body.isMerging param₁ param₂ = true) (known : body.Known) :
    ∃ g, body.Operates param₁ param₂ g := by
  unfold Expr.isMerging at merging
  split at merging
  · rename_i left op right
    obtain ⟨operation, hop⟩ := Option.isSome_iff_exists.1 known.2.1
    simp only [Bool.or_eq_true, Bool.and_eq_true, beq_iff_eq] at merging
    have hleft : left = param₁ ∨ left = param₂ := merging.imp And.left And.left
    have hright : right = param₁ ∨ right = param₂ := merging.symm.imp And.right And.right
    exact ⟨operationOn param₂ left right operation, value_operation hop hleft hright,
      tallies_operation hop hleft hright, watches_operation hop hleft hright⟩
  · cases merging

section Reduction

variable {body : Expr} {param₁ param₂ : Text} {g : Float → Float → Float}
  (h : body.Operates param₁ param₂ g) (scope : Scope) {desk : Desk Note}

include h

theorem lambdaValue_number (a b : Float) :
    lambdaValue body param₁ param₂ scope body.value (.number a) (.number b) =
      .ok (.number (g a b)) :=
  bind_eq_ok.2 ⟨_, h.value scope a b, rfl⟩

/-- The value of a merge tree. -/
theorem MergeTree.value_eq_fold (t : MergeTree) :
    t.value (lambdaValue body param₁ param₂ scope body.value) = .ok (.number (t.fold g)) := by
  induction t with
  | leaf value => rfl
  | node left right ihl ihr =>
    exact bind_eq_ok.2 ⟨_, ihl, bind_eq_ok.2 ⟨_, ihr, lambdaValue_number h scope _ _⟩⟩

/-- The value of a fold from the left. -/
theorem foldValue_eq_foldl (start : Float) (elements : List Float) :
    foldValue (lambdaValue body param₁ param₂ scope body.value) (.number start) elements =
      .ok (.number (elements.foldl g start)) := by
  induction elements generalizing start with
  | nil => rfl
  | cons element elements ih =>
    exact bind_eq_ok.2 ⟨_, lambdaValue_number h scope start element, ih (g start element)⟩

/-- A fold from the left comes to its value. -/
theorem outcome_foldElements (start : Float) (elements : List Float)
    (asked : desk.checkpoint.cancelled = false) :
    (run false (foldElements (body.call param₁ param₂ scope) (.number start) elements .ret)
      desk).outcome = .ok (.number (elements.foldl g start)) := by
  have value := foldValue_eq_foldl h scope start elements
  refine Script.Meets.outcome_eq (.ok (.number (elements.foldl g start))) ?_ asked
  refine (meets_foldElements (Expr.Refined.call body.refined param₁ param₂ scope)
    fun fault raises => ?_).mono (fun v hv => value.symm.trans hv) fun _ => id
  exact absurd raises
    (not_foldRaises (fun _ _ _ => not_lambdaRaises fun _ _ => Expr.not_raises) value)

/-- A `reduce` whose arguments have values comes to the value of its merge tree. -/
theorem outcome_reduce (merging : body.isMerging param₁ param₂ = true) {source neutral : Expr}
    {start : Float} {elements : List Float} {scope : Scope}
    (hsource : Run.valueOf scope source = .ok (.sequence elements))
    (hneutral : Run.valueOf scope neutral = .ok (.number start))
    (asked : desk.checkpoint.cancelled = false) :
    ((Expr.reduce source neutral param₁ param₂ body).report scope desk).outcome =
      .ok (.number ((MergeTree.balanced start elements).fold g)) := by
  refine (Expr.outcome_eq_ok_iff asked).2 ?_
  refine bind_eq_ok.2 ⟨_, Expr.valueOf_eq_ok_iff.1 hsource, ?_⟩
  refine bind_eq_ok.2 ⟨_, Expr.valueOf_eq_ok_iff.1 hneutral, ?_⟩
  refine bind_eq_ok.2 ⟨elements, rfl, bind_eq_ok.2 ⟨start, rfl, ?_⟩⟩
  rw [if_pos merging]
  exact (MergeTree.balanced start elements).value_eq_fold h scope

/-- A watched reduction by a merge tree enters the lambda once for every element. -/
theorem tallies_watchReduce (start : Float) (elements : List Float) :
    (watchReduce body true (body.watchCall param₁ param₂ scope) start elements).Tallies entries
      elements.length (· = .number ((MergeTree.balanced start elements).fold g)) := by
  have reduced : (Script.see (.reduced elements)).Tallies entries 0 fun _ => True :=
    Script.Tallies.note entries (.inr (.reduced elements))
  have noted : ∀ note : Note, (Script.note (.inl note)).Tallies entries 0 fun _ => True :=
    fun note => Script.Tallies.note entries (.inl note)
  refine reduced.silent fun _ _ => (noted _).silent fun _ _ => ?_
  have combined := (MergeTree.balanced start elements).tallies_combine (h.tallies scope)
  rwa [MergeTree.calls_balanced, Nat.mul_one] at combined

/-- Watching does not change a reduction by a merge tree. -/
theorem watches_watchReduce (start : Float) (elements : List Float) :
    (watchReduce body true (body.watchCall param₁ param₂ scope) start elements).Watches
      (fun _ => True) (fun _ => True) Value.IsNumber
      (evalReduce body true (body.call param₁ param₂ scope) start elements) := by
  refine .see trivial ((Script.Watches.note _).bind fun _ _ => ?_)
  refine MergeTree.watches_combine (fun a b ha hb => ?_) (fun _ => trivial) _
  rcases a with a | _ | _ <;> rcases b with b | _ | _ <;>
    first | exact h.watches scope a b | exact ha.elim | exact hb.elim

end Reduction

/-- The lambdas that have been entered are counted by their weight. -/
theorem tally_entries (desk : Desk Watched) :
    desk.tally entries = desk.sights.countP Sight.isEntered := by
  obtain ⟨checkpoint, record⟩ := desk
  induction record with
  | nil => rfl
  | cons entry record ih =>
    rcases entry with (message | sight) | path
    · exact (Nat.zero_add _).trans ih
    · have later := congrArg (entries (.inr sight) + ·) ih
      refine later.trans ?_
      rw [Nat.add_comm]
      exact List.countP_cons.symm
    · exact (Nat.zero_add _).trans ih

/-- One who watches from now on has seen nothing. -/
theorem tally_watched (desk : Desk Note) : desk.watched.tally entries = 0 := by
  rw [tally_entries, List.countP_eq_zero]
  intro sight mem
  exact (Desk.shows_watched (fun _ => False) desk sight mem).elim

/-! ## The theorem -/

/-- The tree over a neutral element and the elements of a sequence, numbered from zero. -/
def MergeTree.ofElements (start : Float) (elements : List Float) : MergeTree :=
  span (fun i => (start :: elements).getD i 0) 0 elements.length

theorem MergeTree.balanced_eq_ofElements (start : Float) (elements : List Float) :
    balanced start elements = ofElements start elements := by
  have found : ∀ i ≤ elements.length,
      (start :: elements)[i]? = some ((start :: elements).getD (0 + i) 0) := by
    intro i hi
    have inside : i < (start :: elements).length := Nat.lt_succ_of_le hi
    rw [Nat.zero_add, List.getD_eq_getElem _ _ inside, List.getElem?_eq_getElem inside]
  have whole := balanced_eq_span (fun i => (start :: elements).getD i 0) 0 found
  rwa [Nat.zero_add] at whole

/-- What it means that a `reduce` with this lambda combines as a merge tree, `g` being what the
lambda does. -/
structure MergesAsTree (body : Expr) (param₁ param₂ : Text) (g : Float → Float → Float) : Prop where
  /-- The lambda returns `g` of its arguments, in every scope. -/
  lambda : ∀ scope a b,
    Run.valueOf ([(param₂, .number b), (param₁, .number a)] :: scope) body = .ok (.number (g a b))
  /-- The leaves of the tree are the neutral element and the elements, in order. -/
  leaves : ∀ start elements, (MergeTree.ofElements start elements).leaves = start :: elements
  /-- The reduction comes to the value of the tree, in every scope and with every source. -/
  outcome : ∀ source neutral scope start elements (desk : Desk Note),
    desk.checkpoint.cancelled = false → Run.valueOf scope source = .ok (.sequence elements) →
    Run.valueOf scope neutral = .ok (.number start) →
    ((Expr.reduce source neutral param₁ param₂ body).report scope desk).outcome =
      .ok (.number ((MergeTree.ofElements start elements).fold g))
  /-- The lambda is called once for every element: one who watches sees it entered so often, and
  sees nothing but the reduction. -/
  calls : ∀ scope start elements (desk : Desk Note), desk.checkpoint.cancelled = false →
    let watched := run false (watchReduce body (body.isMerging param₁ param₂)
      (body.watchCall param₁ param₂ scope) start elements .ret) desk.watched
    watched.plain = run false (evalReduce body (body.isMerging param₁ param₂)
        (body.call param₁ param₂ scope) start elements .ret) desk ∧
      watched.desk.sights.countP Sight.isEntered = elements.length
  /-- If reassociation is exact on the numbers, `v i j` being the value of those from `i` to `j`,
  the tree and the fold from the left have the same value. -/
  reassociated : ∀ start elements (v : Nat → Nat → Float),
    (∀ i ≤ elements.length, (start :: elements)[i]? = some (v i i)) →
    (∀ i k j, i ≤ k → k < j → j ≤ elements.length → g (v i k) (v (k + 1) j) = v i j) →
    (MergeTree.ofElements start elements).fold g = v 0 elements.length ∧
      ∀ scope (desk : Desk Note), desk.checkpoint.cancelled = false →
        (run false (foldElements (body.call param₁ param₂ scope) (.number start) elements .ret)
          desk).outcome = .ok (.number (v 0 elements.length))

/-- A `reduce` whose lambda is a single operation on its two parameters combines as a merge tree.
The operators of an expression that has been parsed are known (`Expr.Derives.known`). -/
theorem mergesAsTree {body : Expr} {param₁ param₂ : Text}
    (merging : body.isMerging param₁ param₂ = true) (known : body.Known) :
    ∃ g, MergesAsTree body param₁ param₂ g := by
  obtain ⟨g, h⟩ := exists_operates merging known
  refine ⟨g, fun scope a b => Expr.valueOf_eq_ok_iff.2 (h.value scope a b), ?_, ?_, ?_, ?_⟩
  · intro start elements
    rw [← MergeTree.balanced_eq_ofElements, MergeTree.leaves_balanced]
  · intro source neutral scope start elements desk asked hsource hneutral
    rw [← MergeTree.balanced_eq_ofElements]
    exact outcome_reduce h merging hsource hneutral asked
  · intro scope start elements desk asked
    rw [merging]
    constructor
    · have plain := (run_watches (watches_watchReduce h scope start elements _ _ _ fun _ => .ret)
        false (desk.shows_watched _)).1
      rwa [Desk.plain_watched] at plain
    · rw [← tally_entries, (run_tallies (tallies_watchReduce h scope start elements).alone asked).2,
        tally_watched, Nat.zero_add]
  · intro start elements v single combined
    constructor
    · refine MergeTree.fold_span (fun i hi => ?_) combined (Nat.zero_le _) le_rfl
      rw [List.getD_eq_getElem?_getD, single i hi, Option.getD_some]
    · intro scope desk asked
      rw [outcome_foldElements h scope start elements asked, foldl_eq_of_exact single combined]

/-- A difference with swapped operands, over three elements: two pairs, and then these. -/
theorem mergesAsTree_of_swapped_difference :
    let body : Expr := .binary (.ident "y") "-" (.ident "x")
    let scope : Scope := [[("s", .sequence [1, 2, 3]), ("n", .number 0)]]
    ∃ g : Float → Float → Float,
      (∀ scope a b, Run.valueOf ([("y", .number b), ("x", .number a)] :: scope) body =
        .ok (.number (g a b))) ∧
      ((Expr.reduce (.ident "s") (.ident "n") "x" "y" body).report scope ⟨.start, []⟩).outcome =
        .ok (.number (g (g 0 1) (g 2 3))) := by
  intro body scope
  have merging : body.isMerging "x" "y" = true := by decide
  have known : body.Known := ⟨trivial, rfl, trivial⟩
  obtain ⟨g, h⟩ := mergesAsTree merging known
  have source : Run.valueOf scope (.ident "s") = .ok (.sequence [1, 2, 3]) :=
    Expr.valueOf_ident scope "s"
  have neutral : Run.valueOf scope (.ident "n") = .ok (.number 0) := Expr.valueOf_ident scope "n"
  refine ⟨g, h.lambda, ?_⟩
  rw [h.outcome _ _ _ _ _ ⟨.start, []⟩ rfl source neutral]
  simp [MergeTree.ofElements, MergeTree.span, MergeTree.fold]

end RangeCalc
