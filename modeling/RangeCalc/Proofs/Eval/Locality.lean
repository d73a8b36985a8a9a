import RangeCalc.Proofs.Eval.Natural
import RangeCalc.Proofs.Loop.Desk

/-!
# What an evaluation depends on

A name is free in an expression if it occurs there outside the body of every lambda that has it as a
parameter. A lambda binds its parameters in its body, not in the sequence it works on and not in the
neutral element.

An expression is evaluated in a chain of frames, and the chain grows by a frame for every call of a
lambda. But of all that, the evaluation sees no more than the values of the free names: in two
scopes in which these have the same values it is the same script, so it also takes the same turns,
passes the same checkpoints and meets the same fault first.

* `Expr.free`: the names that are free in an expression;
* `Scope.get?_overlay`: how a name is looked up behind one more frame;
* `Expr.evalFirst_congr`: the script of an expression, at the head of any chain;
* `Expr.report_eq_of_free`: what comes of carrying it out.
-/

namespace RangeCalc

open Loop

/-- The names that are free in an expression, one for every occurrence. -/
def Expr.free : Expr → List Text
  | number _ => []
  | ident name => [name]
  | negate operand => operand.free
  | binary left _ right => left.free ++ right.free
  | range first last => first.free ++ last.free
  | map source param body => source.free ++ body.free.filter (· ∉ [param])
  | reduce source neutral param₁ param₂ body =>
    source.free ++ (neutral.free ++ body.free.filter (· ∉ [param₂, param₁]))

/-! ## Frames and scopes -/

/-- A frame binds a name if the name is among those of its bindings. -/
theorem Frame.lookup_eq_none_iff {frame : Frame} {name : Text} :
    frame.lookup name = none ↔ name ∉ frame.map Prod.fst := by
  rw [List.lookup_eq_none_iff, List.mem_map, not_exists]
  refine forall_congr' fun binding => ?_
  rw [bne_iff_ne, not_and, ne_comm]

namespace Scope

variable {scope scope' : Scope} {frame frame' : Frame} {name name' : Text}

theorem get?_cons (frame : Frame) (scope : Scope) (name : Text) :
    get? (frame :: scope) name = (frame.lookup name).or (scope.get? name) := by
  rw [get?, List.findSome?_cons]
  cases frame.lookup name <;> rfl

/-- Behind frames that bind two names alike, the names have the same value if they do without these
frames, unless the frames hide that. -/
theorem get?_overlay (here : frame'.lookup name' = frame.lookup name)
    (behind : name ∉ frame.map Prod.fst → scope'.get? name' = scope.get? name) :
    get? (frame' :: scope') name' = get? (frame :: scope) name := by
  rw [get?_cons, get?_cons, here]
  cases found : frame.lookup name with
  | some value => rfl
  | none => exact behind (Frame.lookup_eq_none_iff.1 found)

/-- Two scopes that agree on names also do so behind a common frame, which may bind further ones. -/
theorem agree_overlay {names : List Text} (frame : Frame)
    (same : ∀ name ∈ names.filter (· ∉ frame.map Prod.fst), scope.get? name = scope'.get? name) :
    ∀ name ∈ names, get? (frame :: scope) name = get? (frame :: scope') name := by
  intro name mem
  refine get?_overlay rfl fun outer => same name ?_
  exact List.mem_filter.2 ⟨mem, decide_eq_true outer⟩

end Scope

/-! ## Scripts -/

namespace Expr

variable {scope scope' : Scope}

/-- An expression as an operand. -/
theorem operand_congr {e : Expr} {script script' : Script Note Value}
    (same : ∀ name ∈ e.free, scope.get? name = scope'.get? name) (h : script = script') :
    Operand.ofExpr e scope script = Operand.ofExpr e scope' script' := by
  cases e with
  | ident name =>
    simp only [Operand.ofExpr, Scope.get, same name List.mem_cons_self]
  | number | negate | binary | range | map | reduce =>
    rw [h]
    rfl

/-- Scopes that agree on the free names of an expression give it the same script, whatever further
operands stand behind it. -/
theorem evalFirst_congr {e : Expr}
    (same : ∀ name ∈ e.free, scope.get? name = scope'.get? name)
    (steps : List (Text × Operand Note)) : e.evalFirst scope steps = e.evalFirst scope' steps := by
  -- By induction on the expression, for all scopes: the body of a lambda is evaluated behind one
  -- more frame, which is the same on both sides.
  induction e generalizing scope scope' steps with
  | number value => rfl
  | ident name => simp only [evalFirst, Scope.get, same name List.mem_cons_self]
  | negate operand ih => simp only [evalFirst, ih same]
  | binary left op right ihl ihr =>
    obtain ⟨onLeft, onRight⟩ := List.forall_mem_append.1 same
    rw [evalFirst, evalFirst, operand_congr onRight (ihr onRight []), ihl onLeft]
  | range first last ihf ihl =>
    obtain ⟨onFirst, onLast⟩ := List.forall_mem_append.1 same
    rw [evalFirst, evalFirst, operand_congr onFirst (ihf onFirst []),
      operand_congr onLast (ihl onLast [])]
  | map source param body ihs ihb =>
    obtain ⟨onSource, onBody⟩ := List.forall_mem_append.1 same
    have lambda (element : Float) : body.evalFirst ([(param, .number element)] :: scope) [] =
        body.evalFirst ([(param, .number element)] :: scope') [] :=
      ihb (Scope.agree_overlay [(param, .number element)] onBody) []
    simp only [evalFirst, ihs onSource, lambda]
  | reduce source neutral param₁ param₂ body ihs ihn ihb =>
    obtain ⟨onSource, onOthers⟩ := List.forall_mem_append.1 same
    obtain ⟨onNeutral, onBody⟩ := List.forall_mem_append.1 onOthers
    have lambda : callLambda body param₁ param₂ scope (fun inner => body.evalFirst inner []) =
        callLambda body param₁ param₂ scope' (fun inner => body.evalFirst inner []) := by
      funext a b
      simp only [callLambda]
      rw [ihb (Scope.agree_overlay [(param₂, b), (param₁, a)] onBody) []]
    rw [evalFirst, evalFirst, operand_congr onSource (ihs onSource []),
      operand_congr onNeutral (ihn onNeutral []), lambda]

/-! ## Evaluations -/

/-- What an expression comes to depends on the values of its free names only. In two scopes in which
each of them has the same value, or none in both, the evaluation comes to the same value or the same
fault, and it leaves the same checkpoint counter if it finds the same. -/
theorem report_eq_of_free {e : Expr} {desk desk' : Desk Note}
    (same : ∀ name ∈ e.free, scope.get? name = scope'.get? name)
    (counter : desk.checkpoint = desk'.checkpoint) :
    (e.report scope desk).outcome = (e.report scope' desk').outcome ∧
      (e.report scope desk).desk.checkpoint = (e.report scope' desk').desk.checkpoint := by
  -- The records of the two desks may differ, but an evaluation does not read them.
  obtain ⟨checkpoint, record⟩ := desk
  obtain ⟨_, record'⟩ := desk'
  cases counter
  have onto := run_onto record false (e.eval scope .ret) ⟨checkpoint, []⟩
  have onto' := run_onto record' false (e.eval scope' .ret) ⟨checkpoint, []⟩
  have script : e.eval scope = e.eval scope' := evalFirst_congr same []
  rw [script] at onto
  simp only [Desk.onto, List.nil_append] at onto onto'
  simp only [report, script, onto, onto', and_self]

/-- The two scopes differ in `x`, which is a parameter here, and in their frames, and in neither of
them has `y` a value. -/
theorem report_eq_of_free_of_undefined_name :
    let e : Expr :=
      .reduce (.ident "s") (.ident "n") "x" "x" (.binary (.ident "x") "+" (.ident "y"))
    let scope : Scope := [[("s", .sequence [1, 2]), ("n", .number 0), ("x", .number 5)]]
    let scope' : Scope := [[("n", .number 0)], [("z", .number 1)], [("s", .sequence [1, 2])]]
    e.free = (["s", "n", "y"] : List Text) ∧
      scope.get? "x" = some (.number 5) ∧ scope'.get? "x" = none ∧
      (e.report scope ⟨.start, []⟩).outcome = (e.report scope' ⟨.start, []⟩).outcome ∧
      (e.report scope ⟨.start, []⟩).desk.checkpoint =
        (e.report scope' ⟨.start, []⟩).desk.checkpoint := by
  intro e scope scope'
  have free : e.free = (["s", "n", "y"] : List Text) := by decide
  refine ⟨free, rfl, rfl, report_eq_of_free (fun name mem => ?_) rfl⟩
  rw [free] at mem
  simp only [List.mem_cons, List.not_mem_nil, or_false] at mem
  rcases mem with rfl | rfl | rfl
  · rfl
  · rfl
  · rfl

end Expr

end RangeCalc
