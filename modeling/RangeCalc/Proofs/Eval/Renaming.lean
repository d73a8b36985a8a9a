import Mathlib.Data.List.Nodup
import RangeCalc.Proofs.Eval.Locality

/-!
# Renamed parameters

The parameters of a lambda can be given other names, together with their free occurrences in its
body, as long as the new names occur nowhere in the body: the lambda then does the same in every
scope. Faults are another matter, since their wording quotes the body, so what stays is the value,
or that there is none.

Whether `reduce` combines as a merge tree is decided by the names in its lambda, and that decision
stays as well.

* `Expr.rename`: an expression with other names for those that are free in it;
* `Expr.isMerging_rename`: the choice between merge tree and fold;
* `Expr.toOption_value_rename`: the value of a renamed expression in a scope with renamed frames;
* `Renaming.lookup_ofPairs`, `Renaming.ofPairs_eq_iff`: new names that occur nowhere;
* `renamesLambdas`: lambdas whose parameters are renamed.
-/

namespace RangeCalc

open Loop Result

/-! ## Renaming -/

/-- New names for some names. -/
abbrev Renaming := Text → Text

namespace Renaming

/-- The first name of each pair becomes the second, and all others stay. -/
def ofPairs (pairs : List (Text × Text)) : Renaming := fun name => (pairs.lookup name).getD name

/-- The renaming that leaves the given names as they are. -/
def keeping (names : List Text) (σ : Renaming) : Renaming := fun name =>
  if names.contains name then name else σ name

theorem keeping_of_mem {names : List Text} {name : Text} (σ : Renaming) (h : name ∈ names) :
    keeping names σ name = name :=
  if_pos (List.contains_iff_mem.2 h)

theorem keeping_of_not_mem {names : List Text} {name : Text} (σ : Renaming) (h : name ∉ names) :
    keeping names σ name = σ name :=
  if_neg (mt List.contains_iff_mem.1 h)

/-- The new names are none of those given. -/
def Avoids (σ : Renaming) (names : List Text) : Prop := ∀ name, σ name = name ∨ σ name ∉ names

theorem Avoids.mono {σ : Renaming} {names names' : List Text} (h : σ.Avoids names)
    (sub : names' ⊆ names) : σ.Avoids names' :=
  fun name => (h name).imp_right fun outside mem => outside (sub mem)

theorem Avoids.keeping {σ : Renaming} {names : List Text} (h : σ.Avoids names)
    (kept : List Text) : (Renaming.keeping kept σ).Avoids names := by
  intro name
  by_cases mem : name ∈ kept
  · exact .inl (keeping_of_mem σ mem)
  · rw [keeping_of_not_mem σ mem]
    exact h name

/-- No other name becomes one of those kept. -/
theorem Avoids.keeping_eq_iff {σ : Renaming} {kept : List Text} (h : σ.Avoids kept)
    {name name' : Text} (mem : name' ∈ kept) :
    Renaming.keeping kept σ name = name' ↔ name = name' := by
  by_cases inside : name ∈ kept
  · rw [keeping_of_mem σ inside]
  · rw [keeping_of_not_mem σ inside]
    rcases h name with same | outside
    · rw [same]
    · exact ⟨fun eq => absurd (eq ▸ mem) outside, fun eq => absurd (eq ▸ mem) inside⟩

end Renaming

namespace Expr

/-- All names in an expression, free or not, the parameters of its lambdas included. -/
def names : Expr → List Text
  | number _ => []
  | ident name => [name]
  | negate operand => operand.names
  | binary left _ right => left.names ++ right.names
  | range first last => first.names ++ last.names
  | map source param body => source.names ++ ([param] ++ body.names)
  | reduce source neutral param₁ param₂ body =>
    source.names ++ (neutral.names ++ ([param₂, param₁] ++ body.names))

/-- The expression with its free names renamed. In the body of a lambda, the parameters of that
lambda are not free. -/
def rename : Expr → Renaming → Expr
  | number value, _ => number value
  | ident name, σ => ident (σ name)
  | negate operand, σ => negate (operand.rename σ)
  | binary left op right, σ => binary (left.rename σ) op (right.rename σ)
  | range first last, σ => range (first.rename σ) (last.rename σ)
  | map source param body, σ => map (source.rename σ) param (body.rename (σ.keeping [param]))
  | reduce source neutral param₁ param₂ body, σ =>
    reduce (source.rename σ) (neutral.rename σ) param₁ param₂
      (body.rename (σ.keeping [param₂, param₁]))

/-- The name that an inner lambda binds is another one, and stays. -/
example : (map (range (ident "x") (ident "y")) "x" (binary (ident "x") "+" (ident "y"))).rename
    (.ofPairs [("x", "u"), ("y", "x")]) =
    map (range (ident "u") (ident "x")) "x" (binary (ident "x") "+" (ident "x")) :=
  rfl

/-- A name that is free in an expression occurs in it. -/
theorem mem_names_of_mem_free {e : Expr} {name : Text} (h : name ∈ e.free) : name ∈ e.names := by
  induction e with
  | number => exact h
  | ident => exact h
  | negate operand ih => exact ih h
  | binary left op right ihl ihr => exact List.mem_append.2 ((List.mem_append.1 h).imp ihl ihr)
  | range first last ihf ihl => exact List.mem_append.2 ((List.mem_append.1 h).imp ihf ihl)
  | map source param body ihs ihb =>
    refine List.mem_append.2 ((List.mem_append.1 h).imp ihs fun h => ?_)
    exact List.mem_append_right _ (ihb (List.mem_filter.1 h).1)
  | reduce source neutral param₁ param₂ body ihs ihn ihb =>
    refine List.mem_append.2 ((List.mem_append.1 h).imp ihs fun h => ?_)
    refine List.mem_append.2 ((List.mem_append.1 h).imp ihn fun h => ?_)
    exact List.mem_append_right _ (ihb (List.mem_filter.1 h).1)

/-- A renamed lambda is a single operation on its parameters if it was one before, provided that the
names of its body that become its parameters are the parameters it had. -/
theorem isMerging_rename {body : Expr} {σ : Renaming} {param₁ param₂ param₁' param₂' : Text}
    (h₁ : ∀ name ∈ body.free, σ name = param₁' ↔ name = param₁)
    (h₂ : ∀ name ∈ body.free, σ name = param₂' ↔ name = param₂) :
    (body.rename σ).isMerging param₁' param₂' = body.isMerging param₁ param₂ := by
  have same {name param param' : Text} (h : σ name = param' ↔ name = param) :
      (σ name == param') = (name == param) := by
    rw [Bool.eq_iff_iff, beq_iff_eq, beq_iff_eq, h]
  cases body with
  | binary left op right =>
    cases left with
    | ident a =>
      cases right with
      | ident b =>
        have left : a ∈ (binary (ident a) op (ident b)).free := List.mem_cons_self
        have right : b ∈ (binary (ident a) op (ident b)).free :=
          List.mem_cons_of_mem _ List.mem_cons_self
        simp only [rename, isMerging, same (h₁ a left), same (h₂ a left), same (h₁ b right),
          same (h₂ b right)]
      | number | negate | binary | range | map | reduce => rfl
    | number | negate | binary | range | map | reduce => rfl
  | number | ident | negate | range | map | reduce => rfl

end Expr

/-! ## Calls that succeed alike -/

section Calls

variable {call call' : Value → Value → Except Fault Value}
  (h : ∀ a b, (call' a b).toOption = (call a b).toOption)

include h

theorem toOption_foldValue_congr (accumulated : Value) (elements : List Float) :
    (foldValue call' accumulated elements).toOption =
      (foldValue call accumulated elements).toOption := by
  induction elements generalizing accumulated with
  | nil => rfl
  | cons element elements ih => simp only [foldValue, toOption_bind, h, ih]

theorem MergeTree.toOption_value_congr (t : MergeTree) :
    (t.value call').toOption = (t.value call).toOption := by
  induction t with
  | leaf value => rfl
  | node left right ihl ihr => simp only [MergeTree.value, toOption_bind, h, ihl, ihr]

end Calls

/-- The check of a result looks at the result, and names the body in its fault only. -/
theorem toOption_requireNumber (body body' : Expr) (result : Value) :
    (requireNumber body' result).toOption = (requireNumber body result).toOption := by
  cases result <;> rfl

theorem toOption_requireElement (body body' : Expr) (result : Value) :
    (requireElement body' result).toOption = (requireElement body result).toOption := by
  simp only [requireElement, toOption_bind, toOption_requireNumber body body']
  refine congrArg _ (funext fun value => ?_)
  split <;> rfl

theorem Scope.toOption_get (scope : Scope) (name : Text) :
    (scope.get name).toOption = scope.get? name := by
  rw [get]
  cases scope.get? name <;> rfl

/-! ## Values -/

namespace Expr

variable {scope scope' : Scope}

/-- Two `map`s whose sources and bodies succeed alike. -/
theorem toOption_value_map {source source' body body' : Expr} {param param' : Text}
    (hs : (source'.value scope').toOption = (source.value scope).toOption)
    (hb : ∀ element, (body'.value ([(param', .number element)] :: scope')).toOption =
      (body.value ([(param, .number element)] :: scope)).toOption) :
    ((map source' param' body').value scope').toOption =
      ((map source param body).value scope).toOption := by
  simp only [value, toOption_bind, hs]
  refine congrArg _ (funext fun s => congrArg _ (funext fun elements => ?_))
  refine congrArg (Option.bind · _) (toOption_mapM_congr (fun element => ?_) elements)
  simp only [toOption_bind, hb, toOption_requireElement body body']

/-- Two `reduce`s whose arguments and bodies succeed alike, and that combine in the same way. -/
theorem toOption_value_reduce {source source' neutral neutral' body body' : Expr}
    {param₁ param₂ param₁' param₂' : Text}
    (hs : (source'.value scope').toOption = (source.value scope).toOption)
    (hn : (neutral'.value scope').toOption = (neutral.value scope).toOption)
    (merging : body'.isMerging param₁' param₂' = body.isMerging param₁ param₂)
    (hb : ∀ a b, (body'.value ([(param₂', b), (param₁', a)] :: scope')).toOption =
      (body.value ([(param₂, b), (param₁, a)] :: scope)).toOption) :
    ((reduce source' neutral' param₁' param₂' body').value scope').toOption =
      ((reduce source neutral param₁ param₂ body).value scope).toOption := by
  have call (a b : Value) : (lambdaValue body' param₁' param₂' scope' body'.value a b).toOption =
      (lambdaValue body param₁ param₂ scope body.value a b).toOption := by
    simp only [lambdaValue, toOption_bind, hb, toOption_requireNumber body body']
  simp only [value, toOption_bind, hs, hn, merging]
  refine congrArg _ (funext fun s => congrArg _ (funext fun n => ?_))
  refine congrArg _ (funext fun elements => congrArg _ (funext fun start => ?_))
  split
  · exact MergeTree.toOption_value_congr call _
  · exact toOption_foldValue_congr call _ _

/-- Behind the frame of an inner lambda, whose parameters stay, renamed names have the values that
they have without being renamed. -/
theorem get?_keeping (frame : Frame) {σ : Renaming} {names : List Text}
    (avoids : σ.Avoids (frame.map Prod.fst))
    (same : ∀ name ∈ names.filter (· ∉ frame.map Prod.fst),
      scope'.get? (σ name) = scope.get? name) :
    ∀ name ∈ names, Scope.get? (frame :: scope') (σ.keeping (frame.map Prod.fst) name) =
      Scope.get? (frame :: scope) name := by
  intro name mem
  by_cases bound : name ∈ frame.map Prod.fst
  · rw [Renaming.keeping_of_mem σ bound]
    exact Scope.get?_overlay rfl fun outer => absurd bound outer
  · -- Neither the name nor what it becomes is a parameter of the inner lambda.
    have free : σ name ∉ frame.map Prod.fst := by
      intro captured
      rcases avoids name with eq | outside
      · exact bound (eq ▸ captured)
      · exact outside captured
    rw [Renaming.keeping_of_not_mem σ bound]
    refine Scope.get?_overlay ?_ fun _ => same name (List.mem_filter.2 ⟨mem, decide_eq_true bound⟩)
    rw [Frame.lookup_eq_none_iff.2 free, Frame.lookup_eq_none_iff.2 bound]

/-- A renamed expression succeeds as the expression does, in a scope that gives the new names the
values of the old ones. No lambda inside must bind a new name. -/
theorem toOption_value_rename {e : Expr} {σ : Renaming} (avoids : σ.Avoids e.names)
    (same : ∀ name ∈ e.free, scope'.get? (σ name) = scope.get? name) :
    ((e.rename σ).value scope').toOption = (e.value scope).toOption := by
  induction e generalizing σ scope scope' with
  | number value => rfl
  | ident name =>
    rw [rename, value, value, Scope.toOption_get, Scope.toOption_get,
      same name List.mem_cons_self]
  | negate operand ih => simp only [rename, value, toOption_bind, ih avoids same]
  | binary left op right ihl ihr =>
    obtain ⟨onLeft, onRight⟩ := List.forall_mem_append.1 same
    simp only [rename, value, toOption_bind,
      ihl (avoids.mono (List.subset_append_left _ _)) onLeft,
      ihr (avoids.mono (List.subset_append_right _ _)) onRight]
  | range first last ihf ihl =>
    obtain ⟨onFirst, onLast⟩ := List.forall_mem_append.1 same
    simp only [rename, value, toOption_bind,
      ihf (avoids.mono (List.subset_append_left _ _)) onFirst,
      ihl (avoids.mono (List.subset_append_right _ _)) onLast]
  | map source param body ihs ihb =>
    obtain ⟨onSource, onBody⟩ := List.forall_mem_append.1 same
    have lambda := avoids.mono (List.subset_append_right _ _)
    refine toOption_value_map (ihs (avoids.mono (List.subset_append_left _ _)) onSource)
      fun element => ?_
    refine ihb ((lambda.mono (List.subset_append_right _ _)).keeping _) ?_
    exact get?_keeping [(param, .number element)] (lambda.mono (List.subset_append_left _ _))
      onBody
  | reduce source neutral param₁ param₂ body ihs ihn ihb =>
    obtain ⟨onSource, onOthers⟩ := List.forall_mem_append.1 same
    obtain ⟨onNeutral, onBody⟩ := List.forall_mem_append.1 onOthers
    have others := avoids.mono (List.subset_append_right _ _)
    have lambda := others.mono (List.subset_append_right _ _)
    have params := lambda.mono (List.subset_append_left _ _)
    refine toOption_value_reduce (ihs (avoids.mono (List.subset_append_left _ _)) onSource)
      (ihn (others.mono (List.subset_append_left _ _)) onNeutral) ?_ fun a b => ?_
    · -- The parameters stay, and no other name becomes one of them.
      exact isMerging_rename (fun _ _ => params.keeping_eq_iff (by simp))
        fun _ _ => params.keeping_eq_iff (by simp)
    · refine ihb ((lambda.mono (List.subset_append_right _ _)).keeping _) ?_
      exact get?_keeping [(param₂, b), (param₁, a)] params onBody

end Expr

/-! ## Parameters -/

namespace Renaming

variable {pairs : List (Text × Text)} {names : List Text} {name : Text}

theorem ofPairs_cons (old new : Text) (pairs : List (Text × Text)) (name : Text) :
    ofPairs ((old, new) :: pairs) name = if name = old then new else ofPairs pairs name := by
  rw [ofPairs, ofPairs, List.lookup_cons]
  by_cases here : name = old
  · rw [if_pos here, beq_iff_eq.2 here]
    rfl
  · rw [if_neg here, beq_false_of_ne here]

theorem ofPairs_of_not_mem (h : name ∉ pairs.map Prod.fst) : ofPairs pairs name = name := by
  induction pairs with
  | nil => rfl
  | cons pair pairs ih =>
    obtain ⟨first, others⟩ := not_or.1 (mt List.mem_cons.2 h)
    rw [ofPairs_cons, if_neg first, ih others]

/-- A name stays or becomes one of the new names. -/
theorem ofPairs_eq_or_mem (pairs : List (Text × Text)) (name : Text) :
    ofPairs pairs name = name ∨ ofPairs pairs name ∈ pairs.map Prod.snd := by
  induction pairs with
  | nil => exact .inl rfl
  | cons pair pairs ih =>
    rw [ofPairs_cons]
    split
    · exact .inr List.mem_cons_self
    · exact ih.imp_right (List.mem_cons_of_mem _)

/-- New names that do not occur are avoided. -/
theorem avoids_ofPairs (fresh : ∀ new ∈ pairs.map Prod.snd, new ∉ names) :
    (ofPairs pairs).Avoids names :=
  fun name => (ofPairs_eq_or_mem pairs name).imp_right (fresh _)

/-- Another new name does not come from a name that occurs. -/
theorem ofPairs_ne {new : Text} (fresh : new ∉ names) (other : new ∉ pairs.map Prod.snd)
    (mem : name ∈ names) : ofPairs pairs name ≠ new := by
  intro eq
  rcases ofPairs_eq_or_mem pairs name with same | renamed
  · exact fresh (eq ▸ same.symm ▸ mem)
  · exact other (eq ▸ renamed)

/-- Of the names that occur, only the old one becomes the new one. -/
theorem ofPairs_eq_iff (olds : (pairs.map Prod.fst).Nodup) (news : (pairs.map Prod.snd).Nodup)
    (fresh : ∀ new ∈ pairs.map Prod.snd, new ∉ names) (mem : name ∈ names) {old new : Text}
    (pair : (old, new) ∈ pairs) : ofPairs pairs name = new ↔ name = old := by
  induction pairs with
  | nil => exact absurd pair List.not_mem_nil
  | cons first pairs ih =>
    obtain ⟨old', new'⟩ := first
    obtain ⟨oldOut, olds⟩ := List.nodup_cons.1 olds
    obtain ⟨newOut, news⟩ := List.nodup_cons.1 news
    obtain ⟨freshHere, fresh⟩ := List.forall_mem_cons.1 fresh
    rw [ofPairs_cons]
    rcases List.mem_cons.1 pair with eq | later
    · obtain ⟨rfl, rfl⟩ := Prod.mk.injEq .. ▸ eq
      by_cases here : name = old
      · rw [if_pos here]
        exact iff_of_true rfl here
      · rw [if_neg here]
        exact iff_of_false (ofPairs_ne freshHere newOut mem) here
    · by_cases here : name = old'
      · rw [if_pos here]
        refine iff_of_false (fun eq => newOut ?_) fun eq => oldOut ?_
        · exact List.mem_map.2 ⟨_, later, eq.symm⟩
        · exact List.mem_map.2 ⟨_, later, (here.symm.trans eq).symm⟩
      · rw [if_neg here]
        exact ih olds news fresh later

/-- The parameters have the values that they had under their old names. -/
theorem lookup_ofPairs (values : List Value) (news : (pairs.map Prod.snd).Nodup)
    (fresh : ∀ new ∈ pairs.map Prod.snd, new ∉ names) (mem : name ∈ names) :
    ((pairs.map Prod.snd).zip values).lookup (ofPairs pairs name) =
      ((pairs.map Prod.fst).zip values).lookup name := by
  induction pairs generalizing values with
  | nil => rfl
  | cons pair pairs ih =>
    obtain ⟨old, new⟩ := pair
    obtain ⟨newOut, news⟩ := List.nodup_cons.1 news
    obtain ⟨freshHere, fresh⟩ := List.forall_mem_cons.1 fresh
    cases values with
    | nil => rfl
    | cons value values =>
      simp only [List.map_cons, List.zip_cons_cons, List.lookup_cons, ofPairs_cons]
      by_cases here : name = old
      · rw [if_pos here, beq_self_eq_true, beq_iff_eq.2 here]
      · rw [if_neg here, beq_false_of_ne here,
          beq_false_of_ne (ofPairs_ne freshHere newOut mem)]
        exact ih values news fresh

end Renaming

namespace Expr

/-- The body of a lambda, with new names for its parameters, succeeds as it does with the old
names. -/
theorem toOption_value_ofPairs {body : Expr} (pairs : List (Text × Text)) (values : List Value)
    (length : pairs.length ≤ values.length) (news : (pairs.map Prod.snd).Nodup)
    (fresh : ∀ new ∈ pairs.map Prod.snd, new ∉ body.names) (scope : Scope) :
    ((body.rename (.ofPairs pairs)).value ((pairs.map Prod.snd).zip values :: scope)).toOption =
      (body.value ((pairs.map Prod.fst).zip values :: scope)).toOption := by
  refine toOption_value_rename (Renaming.avoids_ofPairs fresh) fun name free => ?_
  refine Scope.get?_overlay
    (Renaming.lookup_ofPairs values news fresh (mem_names_of_mem_free free)) fun outer => ?_
  rw [List.map_fst_zip (by rwa [List.length_map])] at outer
  rw [Renaming.ofPairs_of_not_mem outer]

end Expr

/-- Two evaluations come to the same value, or both to a fault. -/
def ComeToSame (o o' : Outcome Failure Value) : Prop :=
  (∃ v, o = .ok v ∧ o' = .ok v) ∨
    ∃ fault fault', o = .error (.error (.fault fault)) ∧ o' = .error (.error (.fault fault'))

/-- Expressions that succeed alike come to the same. -/
theorem Expr.comeToSame_of_toOption_eq {e e' : Expr} {scope : Scope}
    (h : (e'.value scope).toOption = (e.value scope).toOption) {desk : Desk Note}
    (asked : desk.checkpoint.cancelled = false) :
    ComeToSame (e.report scope desk).outcome (e'.report scope desk).outcome := by
  rcases e.outcome_eval scope desk asked with
    ⟨v, value, outcome⟩ | ⟨first, fault, value, -, outcome⟩ <;>
  rcases e'.outcome_eval scope desk asked with
    ⟨v', value', outcome'⟩ | ⟨first', fault', value', -, outcome'⟩ <;>
  rw [value, value'] at h
  · cases h
    exact .inl ⟨v, outcome, outcome'⟩
  · cases h
  · cases h
  · exact .inr ⟨fault, fault', outcome, outcome'⟩

/-- The parameters of lambdas can be renamed, in a scope. -/
structure RenamesLambdas (scope : Scope) (desk : Desk Note) : Prop where
  /-- A `map` does the same under a name for its parameter that occurs nowhere in the body. -/
  map : ∀ (source : Expr) (param param' : Text) (body : Expr), param' ∉ body.names →
    let renamed := body.rename (.ofPairs [(param, param')])
    ComeToSame ((Expr.map source param body).report scope desk).outcome
      ((Expr.map source param' renamed).report scope desk).outcome
  /-- So does a `reduce` with two parameters under two such names, and it combines in the same
  way. -/
  reduce : ∀ (source neutral : Expr) (param₁ param₂ param₁' param₂' : Text) (body : Expr),
    param₁ ≠ param₂ → param₁' ≠ param₂' → param₁' ∉ body.names → param₂' ∉ body.names →
    let renamed := body.rename (.ofPairs [(param₂, param₂'), (param₁, param₁')])
    renamed.isMerging param₁' param₂' = body.isMerging param₁ param₂ ∧
      ComeToSame ((Expr.reduce source neutral param₁ param₂ body).report scope desk).outcome
        ((Expr.reduce source neutral param₁' param₂' renamed).report scope desk).outcome

/-- Lambdas whose parameters are renamed do the same, in every scope. -/
theorem renamesLambdas (scope : Scope) (desk : Desk Note)
    (asked : desk.checkpoint.cancelled = false) : RenamesLambdas scope desk where
  map source param param' body outside := by
    have fresh : ∀ new ∈ [(param, param')].map Prod.snd, new ∉ body.names :=
      List.forall_mem_singleton.2 outside
    refine Expr.comeToSame_of_toOption_eq (Expr.toOption_value_map rfl fun element => ?_) asked
    exact Expr.toOption_value_ofPairs [(param, param')] [.number element] (Nat.le_refl 1)
      (List.nodup_singleton param') fresh scope
  reduce source neutral param₁ param₂ param₁' param₂' body distinct distinct' outside₁
      outside₂ := by
    let pairs := [(param₂, param₂'), (param₁, param₁')]
    have olds : (pairs.map Prod.fst).Nodup := by simpa [pairs] using distinct.symm
    have news : (pairs.map Prod.snd).Nodup := by simpa [pairs] using distinct'.symm
    have fresh : ∀ new ∈ pairs.map Prod.snd, new ∉ body.names :=
      List.forall_mem_cons.2 ⟨outside₂, List.forall_mem_singleton.2 outside₁⟩
    have becomes {old new : Text} (pair : (old, new) ∈ pairs) :
        ∀ name ∈ body.free, Renaming.ofPairs pairs name = new ↔ name = old := fun name free =>
      Renaming.ofPairs_eq_iff olds news fresh (Expr.mem_names_of_mem_free free) pair
    have merging : (body.rename (.ofPairs pairs)).isMerging param₁' param₂' =
        body.isMerging param₁ param₂ :=
      Expr.isMerging_rename (becomes (List.mem_cons_of_mem _ List.mem_cons_self))
        (becomes List.mem_cons_self)
    refine ⟨merging, Expr.comeToSame_of_toOption_eq ?_ asked⟩
    refine Expr.toOption_value_reduce rfl rfl merging fun a b => ?_
    exact Expr.toOption_value_ofPairs pairs [b, a] (Nat.le_refl 2) news fresh scope

/-- A lambda with another one inside that has a parameter of the same name, which is not renamed,
and a `reduce` that combines as a merge tree. -/
theorem renamesLambdas_of_shadowed_parameter :
    let scope : Scope := [[("s", .sequence [1, 2, 3]), ("y", .number 4)]]
    let inner (name : Text) : Expr :=
      .reduce (.range (.ident name) (.ident "y")) (.ident name) "x" "z"
        (.binary (.ident "x") "+" (.ident "z"))
    let difference (left right : Text) : Expr := .binary (.ident right) "-" (.ident left)
    ComeToSame ((Expr.map (.ident "s") "x" (inner "x")).report scope ⟨.start, []⟩).outcome
        ((Expr.map (.ident "s") "u" (inner "u")).report scope ⟨.start, []⟩).outcome ∧
      (difference "u" "v").isMerging "u" "v" = true ∧
      ComeToSame
        ((Expr.reduce (.ident "s") (.ident "y") "x" "y" (difference "x" "y")).report scope
          ⟨.start, []⟩).outcome
        ((Expr.reduce (.ident "s") (.ident "y") "u" "v" (difference "u" "v")).report scope
          ⟨.start, []⟩).outcome := by
  intro scope inner difference
  have renames := renamesLambdas scope ⟨.start, []⟩ rfl
  have reduce := renames.reduce (.ident "s") (.ident "y") "x" "y" "u" "v" (difference "x" "y")
    (by decide) (by decide) (by decide) (by decide)
  exact ⟨renames.map (.ident "s") "x" "u" (inner "x") (by decide), reduce.1.trans (by decide),
    reduce.2⟩

end RangeCalc
