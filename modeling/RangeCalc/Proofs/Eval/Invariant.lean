import RangeCalc.Proofs.Eval.Watched
import RangeCalc.Proofs.Number.Integral
import RangeCalc.Proofs.Program.Concatenation

/-!
# What values there are

An expression comes to a number, of whatever kind, or to a sequence of integers that is not empty.
Sequences come from ranges, from `map` and from negation, and each of them keeps to that: a range
has its first bound, `map` has a result for every element and refuses fractions, and the negative
of an integer is one. Lambdas are called with numbers only. So some things that the evaluation
provides for never happen: no text is ever negated, no operator is unknown, and no empty sequence
is reduced.

* `Value.Proper`, `Scope.Sound`: the values there are, and the scopes;
* `Sight.Fine`: what one who watches an evaluation may expect to see;
* `Expr.Known`: the operators of an expression are those that there are;
* `Expr.watches_eval`: one who watches the evaluation of such an expression in such a scope sees
  nothing else.
-/

namespace RangeCalc

open Loop

/-! ## Values and scopes -/

namespace Value

/-- A value is a number. -/
def IsNumber : Value → Prop
  | number _ => True
  | _ => False

/-- A value is a number, or a sequence of integers that is not empty. -/
def Proper : Value → Prop
  | number _ => True
  | sequence elements => elements ≠ [] ∧ ∀ x ∈ elements, Number.isInteger x = true
  | string _ => False

theorem IsNumber.proper {v : Value} (h : v.IsNumber) : v.Proper := by
  cases v with
  | number => exact trivial
  | string | sequence => exact h.elim

/-- Negation keeps a value proper. -/
theorem Proper.negate {v : Value} (h : v.Proper) : v.negate.Proper := by
  cases v with
  | number => exact trivial
  | string => exact h
  | sequence elements =>
    refine ⟨fun empty => h.1 (List.map_eq_nil_iff.1 empty), fun x mem => ?_⟩
    obtain ⟨y, inside, rfl⟩ := List.mem_map.1 mem
    exact Number.isInteger_neg (h.2 y inside)

end Value

/-- Every value of a frame is proper. -/
def Frame.Proper (frame : Frame) : Prop := ∀ binding ∈ frame, binding.2.Proper

/-- A scope is a global frame with proper values, and before it frames with numbers only. -/
inductive Scope.Sound : Scope → Prop
  | globals {frame : Frame} (proper : frame.Proper) : Sound [frame]
  | overlay {frame : Frame} {scope : Scope} (numbers : ∀ binding ∈ frame, binding.2.IsNumber)
      (outer : Sound scope) : Sound (frame :: scope)

theorem Frame.Proper.of_lookup {frame : Frame} (h : frame.Proper) {name : Text} {value : Value}
    (found : frame.lookup name = some value) : value.Proper := by
  induction frame with
  | nil => cases found
  | cons binding frame ih =>
    obtain ⟨first, others⟩ := List.forall_mem_cons.1 h
    obtain ⟨name', value'⟩ := binding
    rw [List.lookup_cons] at found
    split at found
    · cases found
      exact first
    · exact ih others found

/-- Every value of a sound scope is proper. -/
theorem Scope.Sound.proper {scope : Scope} (h : scope.Sound) :
    ∀ frame ∈ scope, Frame.Proper frame := by
  induction h with
  | globals proper => exact List.forall_mem_singleton.2 proper
  | overlay numbers _ ih =>
    exact List.forall_mem_cons.2 ⟨fun binding mem => (numbers binding mem).proper, ih⟩

/-- A name has a proper value in a sound scope. -/
theorem Scope.Sound.of_get? {scope : Scope} (h : scope.Sound) {name : Text} {value : Value}
    (found : scope.get? name = some value) : value.Proper := by
  obtain ⟨frame, mem, here⟩ := List.exists_of_findSome?_eq_some found
  exact (h.proper frame mem).of_lookup here

/-! ## What is to be seen -/

/-- What one who watches an evaluation may expect to see. -/
def Sight.Fine : Sight → Prop
  | .returned value => value.Proper
  | .entered scope => scope.Sound
  | .negated value => value.kind ≠ .string
  | .applied op _ _ => (arithmetic? op).isSome
  | .reduced elements => elements ≠ []

/-- The fault is not that of an unknown operator. -/
def Fault.Possible : Fault → Prop
  | .unknownOperator _ => False
  | _ => True

/-- The operators of an expression are those that there are. -/
def Expr.Known : Expr → Prop
  | number _ => True
  | ident _ => True
  | negate operand => operand.Known
  | binary left op right => left.Known ∧ (arithmetic? op).isSome ∧ right.Known
  | range first last => first.Known ∧ last.Known
  | map source _ body => source.Known ∧ body.Known
  | reduce source neutral _ _ body => source.Known ∧ neutral.Known ∧ body.Known

/-! ## Operations -/

/-- A name has a proper value, or none. -/
theorem within_get {scope : Scope} (h : scope.Sound) (name : Text) :
    Within Value.Proper Fault.Possible (scope.get name) := by
  rw [Scope.get]
  cases found : scope.get? name with
  | none => exact trivial
  | some value => exact h.of_get? found

/-- A known operator gives a number, or refuses its operands. -/
theorem within_applyOperator {op : Text} (h : (arithmetic? op).isSome) (left right : Value) :
    Within Value.Proper Fault.Possible (applyOperator op left right) := by
  obtain ⟨operation, known⟩ := Option.isSome_iff_exists.1 h
  cases left <;> cases right <;> simp only [applyOperator, known] <;> exact trivial

/-- A range has its first bound, and all of its elements are integers. -/
theorem within_rangeBetween (first last : Value) :
    Within Value.Proper Fault.Possible (rangeBetween first last) := by
  rw [rangeBetween.eq_def]
  split
  · rename_i a b
    split
    · rename_i start stop hstart hstop
      split
      · exact trivial
      · rename_i ordered
        refine ⟨?_, fun x mem => ?_⟩
        · rw [integersFrom, Ne, List.map_eq_nil_iff, List.range_eq_nil]
          omega
        · obtain ⟨i, inside, rfl⟩ := List.mem_map.1 mem
          have lt := List.mem_range.1 inside
          exact Number.isInteger_ofInt hstart hstop (by omega) (by omega)
    · exact trivial
  · exact trivial

/-- The elements of a sequence that a combinator is given. -/
theorem within_requireSequence {value : Value} (h : value.Proper) (combinator : Combinator) :
    Within (fun elements => elements ≠ []) Fault.Possible (requireSequence combinator value) := by
  cases value with
  | sequence => exact h.1
  | number | string => exact trivial

theorem within_requireNeutral (value : Value) :
    Within (fun _ => True) Fault.Possible (requireNeutral value) := by
  cases value <;> exact trivial

theorem within_requireNumber (body : Expr) (value : Value) :
    Within (fun _ => True) Fault.Possible (requireNumber body value) := by
  cases value <;> exact trivial

theorem within_requireElement (body : Expr) (value : Value) :
    Within (fun x => Number.isInteger x = true) Fault.Possible (requireElement body value) := by
  refine (within_requireNumber body value).bind fun x _ => ?_
  split
  · assumption
  · exact trivial

/-- The results of a lambda that are all integers make up a sequence of as many elements. -/
theorem within_elements (body : Expr) (results : List Value) :
    Within (fun mapped => mapped.length = results.length ∧ ∀ x ∈ mapped, Number.isInteger x = true)
      Fault.Possible (results.mapM (requireElement body)) := by
  induction results with
  | nil => exact ⟨rfl, List.forall_mem_nil _⟩
  | cons result results ih =>
    rw [List.mapM_cons]
    refine (within_requireElement body result).bind fun x hx => ?_
    refine ih.bind fun mapped hmapped => ?_
    exact ⟨congrArg Nat.succ hmapped.1, List.forall_mem_cons.2 ⟨hx, hmapped.2⟩⟩

/-! ## Expressions -/

/-- The condition on the operands behind the operators of a chain. -/
def StepFine (step : Text × Value) : Prop := (arithmetic? step.1).isSome ∧ step.2.Proper

/-- At the head of a chain, the watched evaluation of an expression lets nothing be seen but what
may be expected, next to the plain one. -/
def Expr.Watchable (e : Expr) : Prop :=
  ∀ {scope : Scope} {steps : List (Text × Operand Watched)} {steps' : List (Text × Operand Note)},
    scope.Sound → StepsWatch Sight.Fine Fault.Possible StepFine steps steps' →
    (e.watchFirst scope steps).Watches Sight.Fine Fault.Possible Value.Proper
      (e.evalFirst scope steps')

/-- `map` over a sequence that is not empty. -/
theorem watches_evalMap {body : Expr} {apply : Float → Script Watched Value}
    {apply' : Float → Script Note Value} {elements : List Float} (some_element : elements ≠ [])
    (h : ∀ element ∈ elements,
      (apply element).Watches Sight.Fine Fault.Possible Value.Proper (apply' element)) :
    (evalMap body apply elements).Watches Sight.Fine Fault.Possible Value.Proper
      (evalMap body apply' elements) := by
  refine (watches_mapResults h).bind fun results hresults => ?_
  refine (Script.Watches.ofExcept (within_elements body results)).bind fun mapped hmapped => ?_
  refine .pure ⟨fun empty => some_element ?_, hmapped.2⟩
  rw [← List.length_eq_zero_iff, ← hresults.1, ← hmapped.1, empty, List.length_nil]

namespace Expr

variable {scope : Scope}

/-- A chain with proper operands and known operators. -/
theorem watches_chain_of_operand {first : Operand Watched} {first' : Operand Note}
    {steps : List (Text × Operand Watched)} {steps' : List (Text × Operand Note)}
    (h : first.Watches Sight.Fine Fault.Possible Value.Proper first')
    (hsteps : StepsWatch Sight.Fine Fault.Possible StepFine steps steps') :
    (watchChain first steps).Watches Sight.Fine Fault.Possible Value.Proper
      (evalChain first' steps') :=
  watches_chain h hsteps
    (fun left _ right _ step => ⟨step.1, within_applyOperator step.1 left right⟩) fun _ => id

/-- An expression as an operand. -/
theorem Watchable.operand {e : Expr} (h : e.Watchable) (sound : scope.Sound) :
    (Operand.ofExpr e scope (e.watchFirst scope [])).Watches Sight.Fine Fault.Possible Value.Proper
      (Operand.ofExpr e scope (e.evalFirst scope [])) := by
  cases e with
  | number value => exact .leaf ⟨trivial, trivial⟩
  | ident name => exact .leaf ((within_get sound name).mono (fun _ h => ⟨h, h⟩) fun _ => id)
  | negate | binary | range | map | reduce => exact .compound (h sound .nil)

/-- A call of a two-parameter lambda with numbers. -/
theorem Watchable.call {body : Expr} (h : body.Watchable) (sound : scope.Sound)
    (param₁ param₂ : Text) {a b : Value} (ha : a.IsNumber) (hb : b.IsNumber) :
    (callLambda body param₁ param₂ scope (fun inner => do
        Script.see (.entered inner)
        body.watchFirst inner []) a b).Watches Sight.Fine Fault.Possible Value.IsNumber
      (callLambda body param₁ param₂ scope (fun inner => body.evalFirst inner []) a b) := by
  have inner : Scope.Sound ([(param₂, b), (param₁, a)] :: scope) :=
    .overlay (List.forall_mem_cons.2 ⟨hb, List.forall_mem_singleton.2 ha⟩) sound
  refine Script.Watches.bind (.see inner (h inner .nil)) fun result _ => ?_
  exact (Script.Watches.ofExcept (within_requireNumber body result)).bind fun _ _ => .pure trivial

theorem watchable_negate {operand : Expr} (h : operand.Watchable) : (negate operand).Watchable := by
  intro scope steps steps' sound hsteps
  refine watches_chain_of_operand (.compound ?_) hsteps
  refine Script.Watches.check.bind fun _ _ => (h sound .nil).bind fun v hv => ?_
  have no_text : v.kind ≠ .string := by
    cases v with
    | string => exact hv.elim
    | number | sequence => nofun
  exact .see no_text (.returning hv.negate hv.negate)

theorem watchable_range {first last : Expr} (hf : first.Watchable) (hl : last.Watchable) :
    (range first last).Watchable := by
  intro scope steps steps' sound hsteps
  refine watches_chain_of_operand (.compound ?_) hsteps
  refine Script.Watches.check.bind fun _ _ => ?_
  refine (watches_pair (hf.operand sound) (hl.operand sound)).bind fun v _ => ?_
  intro W next next' later
  exact Script.Watches.ofExcept (within_rangeBetween v.1 v.2) W _ _ fun result hresult =>
    .see hresult (later result hresult)

theorem watchable_map {source body : Expr} (param : Text) (hs : source.Watchable)
    (hb : body.Watchable) : (map source param body).Watchable := by
  intro scope steps steps' sound hsteps
  refine watches_chain_of_operand (.compound ?_) hsteps
  refine Script.Watches.check.bind fun _ _ => (hs sound .nil).bind fun s hsource => ?_
  refine (Script.Watches.ofExcept (within_requireSequence hsource .map)).bind
    fun elements some_element => ?_
  intro W next next' later
  refine watches_evalMap some_element (fun element _ => ?_) W _ _ fun mapped hmapped =>
    .see hmapped (later mapped hmapped)
  have inner : Scope.Sound ([(param, .number element)] :: scope) :=
    .overlay (List.forall_mem_singleton.2 trivial) sound
  exact .see inner (hb inner .nil)

theorem watchable_reduce {source neutral body : Expr} (param₁ param₂ : Text)
    (hs : source.Watchable) (hn : neutral.Watchable) (hb : body.Watchable) :
    (reduce source neutral param₁ param₂ body).Watchable := by
  intro scope steps steps' sound hsteps
  refine watches_chain_of_operand (.compound ?_) hsteps
  refine Script.Watches.check.bind fun _ _ => ?_
  refine (watches_pair (hs.operand sound) (hn.operand sound)).bind fun v hv => ?_
  refine (Script.Watches.ofExcept (within_requireSequence hv.1 .reduce)).bind
    fun elements some_element => ?_
  refine (Script.Watches.ofExcept (within_requireNeutral v.2)).bind fun start _ => ?_
  -- Fold and merge tree call the lambda with numbers only, and it returns one.
  have combined : (watchReduce body (body.isMerging param₁ param₂)
      (callLambda body param₁ param₂ scope fun inner => do
        Script.see (.entered inner)
        body.watchFirst inner []) start elements).Watches Sight.Fine Fault.Possible Value.IsNumber
      (evalReduce body (body.isMerging param₁ param₂)
        (callLambda body param₁ param₂ scope fun inner => body.evalFirst inner []) start
        elements) := by
    refine .see some_element ((Script.Watches.note _).bind fun _ _ => ?_)
    have call := fun a b ha hb' => @Watchable.call scope body hb sound param₁ param₂ a b ha hb'
    split
    · exact MergeTree.watches_combine call (fun _ => trivial) _
    · exact watches_foldElements call (fun _ => trivial)
        (show (Value.number start).IsNumber from trivial) elements
  intro W next next' later
  exact combined W _ _ fun value hvalue => .see hvalue.proper (later value hvalue.proper)

/-- An expression with known operators, by induction on the expression. -/
theorem watchable {e : Expr} (known : e.Known) : e.Watchable := by
  induction e with
  | number value =>
    intro scope steps steps' _ hsteps
    exact watches_chain_of_operand (.leaf ⟨trivial, trivial⟩) hsteps
  | ident name =>
    intro scope steps steps' sound hsteps
    exact watches_chain_of_operand
      (.leaf ((within_get sound name).mono (fun _ h => ⟨h, h⟩) fun _ => id)) hsteps
  | negate operand ih => exact watchable_negate (ih known)
  | binary left op right ihl ihr =>
    intro scope steps steps' sound hsteps
    -- The chain is taken apart along its left side, as the plain evaluation does.
    have right_watchable : right.Watchable := ihr known.2.2
    refine ihl known.1 sound (.cons ?_ hsteps)
    exact (right_watchable.operand sound).mono fun _ hv => ⟨known.2.1, hv⟩
  | range first last ihf ihl => exact watchable_range (ihf known.1) (ihl known.2)
  | map source param body ihs ihb => exact watchable_map param (ihs known.1) (ihb known.2)
  | reduce source neutral param₁ param₂ body ihs ihn ihb =>
    exact watchable_reduce param₁ param₂ (ihs known.1) (ihn known.2.1) (ihb known.2.2)

/-- One who watches an evaluation sees what may be expected, and it comes to a proper value. -/
theorem watches_eval {e : Expr} (known : e.Known) {scope : Scope} (sound : scope.Sound) :
    (e.watch scope .ret).Watches Sight.Fine (Failure.Within Fault.Possible) Value.Proper
      (e.eval scope .ret) :=
  watchable known sound .nil Value.Proper _ _ fun _ => .ret

end Expr

/-! ## Parsed expressions -/

/-- A phrase whose operators are spelled as such denotes an expression with known operators. -/
theorem Expr.Derives.known {phrase : Phrase} {height : Nat} {tokens : List Token} {e : Expr}
    (h : Expr.Derives phrase height tokens e)
    (spelled : ∀ token ∈ tokens, ∀ op, token.kind.operator? = some op → token.text = op) :
    e.Known := by
  have operator {op : Token} {text : Text} (spelled : ∀ text, op.kind.operator? = some text →
      op.text = text) (kind : op.kind.operator? = some text) (known : (arithmetic? text).isSome) :
      (arithmetic? op.text).isSome := by rwa [spelled text kind]
  induction h with
  | sum _ ih => exact ih spelled
  | @add _ _ _ _ _ _ op _ sign _ ih₁ ih₂ =>
    obtain ⟨first, rest⟩ := List.forall_mem_append.1 spelled
    obtain ⟨here, last⟩ := List.forall_mem_cons.1 rest
    refine ⟨ih₁ first, ?_, ih₂ last⟩
    rcases sign with sign | sign
    · exact operator here (by rw [sign]; rfl) rfl
    · exact operator here (by rw [sign]; rfl) rfl
  | product _ ih => exact ih spelled
  | @multiply _ _ _ _ _ _ op _ sign _ ih₁ ih₂ =>
    obtain ⟨first, rest⟩ := List.forall_mem_append.1 spelled
    obtain ⟨here, last⟩ := List.forall_mem_cons.1 rest
    refine ⟨ih₁ first, ?_, ih₂ last⟩
    rcases sign with sign | sign
    · exact operator here (by rw [sign]; rfl) rfl
    · exact operator here (by rw [sign]; rfl) rfl
  | power _ ih => exact ih spelled
  | @raise _ _ _ _ _ _ op _ sign _ ih₁ ih₂ =>
    obtain ⟨first, rest⟩ := List.forall_mem_append.1 spelled
    obtain ⟨here, last⟩ := List.forall_mem_cons.1 rest
    exact ⟨ih₁ first, operator here (by rw [sign]; rfl) rfl, ih₂ last⟩
  | number | ident | negateIdent | negateNumber => exact trivial
  | negateGroup _ _ _ _ ih | group _ _ _ ih =>
    refine ih fun token mem => spelled token ?_
    simp [mem]
  | range _ _ _ _ _ ih₁ ih₂ | map _ _ _ _ _ _ _ _ ih₁ ih₂ =>
    refine ⟨ih₁ fun token mem => spelled token ?_, ih₂ fun token mem => spelled token ?_⟩
    · simp [mem]
    · simp [mem]
  | reduce _ _ _ _ _ _ _ _ _ _ _ ih₁ ih₂ ih₃ =>
    refine ⟨ih₁ fun token mem => spelled token ?_, ih₂ fun token mem => spelled token ?_,
      ih₃ fun token mem => spelled token ?_⟩
    · simp [mem]
    · simp [mem]
    · simp [mem]

end RangeCalc
