import RangeCalc.Eval
import RangeCalc.Proofs.Result

/-!
# Plain evaluation

The value of an expression by plain recursion: no tasks, no checkpoints, no batches. Every operand
is evaluated in its turn, from left to right, `map` takes the elements one after the other, and
`reduce` is a fold from the left or the recursion on one merge tree. The first fault met on the way
is the result (`Expr.value`).

An evaluation in another order may meet another fault first. `Expr.Raises` are the faults that it
can meet: those of all operands, element bodies and checks, each of them carried out on its own,
whatever becomes of the others. Only what needs the value of something waits for it: a check for the
operands it looks at, a lambda for the element or the accumulated value it is called with.

* `Expr.exists_value_eq_error`: an expression that raises a fault has no value.
-/

namespace RangeCalc

open Result

/-! ## Results and faults of a series of calls -/

/-- A two-parameter lambda that is called with values, and has to return a number. -/
def lambdaValue (body : Expr) (param₁ param₂ : Text) (scope : Scope)
    (bodyValue : Scope → Except Fault Value) (a b : Value) : Except Fault Value := do
  let result ← bodyValue ([(param₂, b), (param₁, a)] :: scope)
  let value ← requireNumber body result
  return .number value

/-- A call of a two-parameter lambda raises a fault: its body does, or returns no number. -/
def LambdaRaises (body : Expr) (param₁ param₂ : Text) (scope : Scope)
    (bodyValue : Scope → Except Fault Value) (bodyRaises : Scope → Fault → Prop) (a b : Value)
    (fault : Fault) : Prop :=
  bodyRaises ([(param₂, b), (param₁, a)] :: scope) fault ∨
    ∃ result, bodyValue ([(param₂, b), (param₁, a)] :: scope) = .ok result ∧
      requireNumber body result = .error fault

/-- The elements combined from the left. -/
def foldValue (call : Value → Value → Except Fault Value) : Value → List Float → Except Fault Value
  | accumulated, [] => .ok accumulated
  | accumulated, element :: elements => do
    let result ← call accumulated (.number element)
    foldValue call result elements

/-- A call on the way from the left raises a fault. -/
def FoldRaises (call : Value → Value → Except Fault Value) (raises : Value → Value → Fault → Prop) :
    Value → List Float → Fault → Prop
  | _, [], _ => False
  | accumulated, element :: elements, fault =>
    raises accumulated (.number element) fault ∨
      ∃ result, call accumulated (.number element) = .ok result ∧
        FoldRaises call raises result elements fault

/-- The numbers at the leaves of a merge tree, combined node by node. -/
def MergeTree.value (call : Value → Value → Except Fault Value) : MergeTree → Except Fault Value
  | leaf value => .ok (.number value)
  | node left right => do
    let a ← left.value call
    let b ← right.value call
    call a b

/-- The call at some node of a merge tree raises a fault. -/
def MergeTree.Raises (call : Value → Value → Except Fault Value)
    (raises : Value → Value → Fault → Prop) : MergeTree → Fault → Prop
  | leaf _, _ => False
  | node left right, fault =>
    left.Raises call raises fault ∨ right.Raises call raises fault ∨
      ∃ a b, left.value call = .ok a ∧ right.value call = .ok b ∧ raises a b fault

/-! ## Expressions -/

/-- The value of an expression in a scope, by plain recursion. -/
def Expr.value : Expr → Scope → Except Fault Value
  | number value, _ => .ok (.number value)
  | ident name, scope => scope.get name
  | negate operand, scope => do
    let value ← operand.value scope
    return value.negate
  | binary left op right, scope => do
    let a ← left.value scope
    let b ← right.value scope
    applyOperator op a b
  | range first last, scope => do
    let a ← first.value scope
    let b ← last.value scope
    rangeBetween a b
  | map source param body, scope => do
    let value ← source.value scope
    let elements ← requireSequence .map value
    let mapped ← elements.mapM fun element => do
      let result ← body.value ([(param, .number element)] :: scope)
      requireElement body result
    return .sequence mapped
  | reduce source neutral param₁ param₂ body, scope => do
    let s ← source.value scope
    let n ← neutral.value scope
    let elements ← requireSequence .reduce s
    let start ← requireNeutral n
    let call := lambdaValue body param₁ param₂ scope body.value
    if body.isMerging param₁ param₂ then (MergeTree.balanced start elements).value call
    else foldValue call (.number start) elements

/-- The faults that the operands, element bodies and checks of an expression raise, each of them
carried out on its own. -/
def Expr.Raises : Expr → Scope → Fault → Prop
  | number _, _, _ => False
  | ident name, scope, fault => scope.get name = .error fault
  | negate operand, scope, fault => operand.Raises scope fault
  | binary left op right, scope, fault =>
    left.Raises scope fault ∨ right.Raises scope fault ∨
      ∃ a b, left.value scope = .ok a ∧ right.value scope = .ok b ∧
        applyOperator op a b = .error fault
  | range first last, scope, fault =>
    first.Raises scope fault ∨ last.Raises scope fault ∨
      ∃ a b, first.value scope = .ok a ∧ last.value scope = .ok b ∧ rangeBetween a b = .error fault
  | map source param body, scope, fault =>
    source.Raises scope fault ∨
      ∃ s, source.value scope = .ok s ∧
        (requireSequence .map s = .error fault ∨
          ∃ elements, requireSequence .map s = .ok elements ∧ ∃ element ∈ elements,
            body.Raises ([(param, .number element)] :: scope) fault ∨
              ∃ result, body.value ([(param, .number element)] :: scope) = .ok result ∧
                requireElement body result = .error fault)
  | reduce source neutral param₁ param₂ body, scope, fault =>
    source.Raises scope fault ∨ neutral.Raises scope fault ∨
      ∃ s n, source.value scope = .ok s ∧ neutral.value scope = .ok n ∧
        (requireSequence .reduce s = .error fault ∨
          ∃ elements, requireSequence .reduce s = .ok elements ∧
            (requireNeutral n = .error fault ∨
              ∃ start, requireNeutral n = .ok start ∧
                let call := lambdaValue body param₁ param₂ scope body.value
                let raises := LambdaRaises body param₁ param₂ scope body.value body.Raises
                if body.isMerging param₁ param₂ then
                  (MergeTree.balanced start elements).Raises call raises fault
                else FoldRaises call raises (.number start) elements fault))

/-! ## Faults exclude values -/

/-- A call that returns raises no fault, if its body does not when it returns. -/
theorem not_lambdaRaises {body : Expr} {param₁ param₂ : Text} {scope : Scope} {a b v : Value}
    {fault : Fault}
    (hbody : ∀ inner result, body.value inner = .ok result → ¬body.Raises inner fault)
    (h : lambdaValue body param₁ param₂ scope body.value a b = .ok v) :
    ¬LambdaRaises body param₁ param₂ scope body.value body.Raises a b fault := by
  obtain ⟨result, hresult, h⟩ := bind_eq_ok.1 h
  obtain ⟨number, hnumber, -⟩ := bind_eq_ok.1 h
  rintro (raises | ⟨result', hresult', refused⟩)
  · exact hbody _ _ hresult raises
  · cases hresult.symm.trans hresult'
    cases hnumber.symm.trans refused

section Calls

variable {call : Value → Value → Except Fault Value} {raises : Value → Value → Fault → Prop}
  {fault : Fault}

/-- A fold that comes to its end raises no fault, if its calls do not when they return. -/
theorem not_foldRaises (hcall : ∀ a b v, call a b = .ok v → ¬raises a b fault)
    {accumulated v : Value} {elements : List Float}
    (h : foldValue call accumulated elements = .ok v) :
    ¬FoldRaises call raises accumulated elements fault := by
  induction elements generalizing accumulated with
  | nil => exact id
  | cons element elements ih =>
    obtain ⟨result, hresult, h⟩ := bind_eq_ok.1 h
    rintro (here | ⟨result', hresult', later⟩)
    · exact hcall _ _ _ hresult here
    · cases hresult.symm.trans hresult'
      exact ih h later

/-- A merge tree that has a value raises no fault, if the calls do not when they return. -/
theorem MergeTree.not_raises (hcall : ∀ a b v, call a b = .ok v → ¬raises a b fault) {t : MergeTree}
    {v : Value} (h : t.value call = .ok v) : ¬t.Raises call raises fault := by
  induction t generalizing v with
  | leaf => exact id
  | node left right ihl ihr =>
    obtain ⟨a, ha, h⟩ := bind_eq_ok.1 h
    obtain ⟨b, hb, h⟩ := bind_eq_ok.1 h
    rintro (hl | hr | ⟨a', b', ha', hb', here⟩)
    · exact ihl ha hl
    · exact ihr hb hr
    · cases ha.symm.trans ha'
      cases hb.symm.trans hb'
      exact hcall _ _ _ h here

end Calls

/-- Two operands that have values raise no fault, and neither does what is made of the values. -/
theorem not_raises_pair {x y : Except Fault Value} {combine : Value → Value → Except Fault Value}
    {raisesX raisesY : Fault → Prop} {v : Value} {fault : Fault}
    (h : (do
      let a ← x
      let b ← y
      combine a b) = .ok v)
    (hx : ∀ a, x = .ok a → ¬raisesX fault) (hy : ∀ b, y = .ok b → ¬raisesY fault) :
    ¬(raisesX fault ∨ raisesY fault ∨
      ∃ a b, x = .ok a ∧ y = .ok b ∧ combine a b = .error fault) := by
  obtain ⟨a, ha, h⟩ := bind_eq_ok.1 h
  obtain ⟨b, hb, h⟩ := bind_eq_ok.1 h
  rintro (raises | raises | ⟨a', b', ha', hb', refused⟩)
  · exact hx a ha raises
  · exact hy b hb raises
  · cases ha.symm.trans ha'
    cases hb.symm.trans hb'
    cases h.symm.trans refused

/-- An expression that has a value raises no fault. -/
theorem Expr.not_raises {e : Expr} {scope : Scope} {v : Value} {fault : Fault}
    (h : e.value scope = .ok v) : ¬e.Raises scope fault := by
  induction e generalizing scope v with
  | number => exact id
  | ident name => exact fun raises => nomatch h.symm.trans raises
  | negate operand ih =>
    obtain ⟨a, ha, -⟩ := bind_eq_ok.1 h
    exact ih ha
  | binary left op right ihl ihr => exact not_raises_pair h (fun _ => ihl) fun _ => ihr
  | range first last ihf ihl => exact not_raises_pair h (fun _ => ihf) fun _ => ihl
  | map source param body ihs ihb =>
    -- Follow the value down to the place where the fault is said to be raised: what is found there
    -- is a result, and a result is not a fault.
    obtain ⟨s, hs, h⟩ := bind_eq_ok.1 h
    obtain ⟨elements, helements, h⟩ := bind_eq_ok.1 h
    obtain ⟨mapped, hmapped, -⟩ := bind_eq_ok.1 h
    rintro (raises | ⟨s', hs', raises⟩)
    · exact ihs hs raises
    cases hs.symm.trans hs'
    rcases raises with refused | ⟨elements', helements', element, mem, raises⟩
    · cases helements.symm.trans refused
    cases helements.symm.trans helements'
    obtain ⟨x, hx⟩ := exists_ok_of_mapM hmapped mem
    obtain ⟨result, hresult, accepted⟩ := bind_eq_ok.1 hx
    rcases raises with raises | ⟨result', hresult', refused⟩
    · exact ihb hresult raises
    · cases hresult.symm.trans hresult'
      cases accepted.symm.trans refused
  | reduce source neutral param₁ param₂ body ihs ihn ihb =>
    obtain ⟨s, hs, h⟩ := bind_eq_ok.1 h
    obtain ⟨n, hn, h⟩ := bind_eq_ok.1 h
    obtain ⟨elements, helements, h⟩ := bind_eq_ok.1 h
    obtain ⟨start, hstart, h⟩ := bind_eq_ok.1 h
    rintro (raises | raises | ⟨s', n', hs', hn', raises⟩)
    · exact ihs hs raises
    · exact ihn hn raises
    cases hs.symm.trans hs'
    cases hn.symm.trans hn'
    rcases raises with refused | ⟨elements', helements', refused | ⟨start', hstart', raises⟩⟩
    · cases helements.symm.trans refused
    · cases hstart.symm.trans refused
    cases helements.symm.trans helements'
    cases hstart.symm.trans hstart'
    -- Fold and merge tree call the same lambda, so they differ only in which calls they make.
    have hcall : ∀ a b v, lambdaValue body param₁ param₂ scope body.value a b = .ok v →
        ¬LambdaRaises body param₁ param₂ scope body.value body.Raises a b fault :=
      fun _ _ _ => not_lambdaRaises fun _ _ => ihb
    simp only at h raises
    split at h
    · rw [if_pos (by assumption)] at raises
      exact MergeTree.not_raises hcall h raises
    · rw [if_neg (by assumption)] at raises
      exact not_foldRaises hcall h raises

/-- An expression that raises a fault has no value. -/
theorem Expr.exists_value_eq_error {e : Expr} {scope : Scope} {fault : Fault}
    (h : e.Raises scope fault) : ∃ first, e.value scope = .error first := by
  cases value : e.value scope with
  | error first => exact ⟨first, rfl⟩
  | ok v => exact absurd h (not_raises value)

end RangeCalc
