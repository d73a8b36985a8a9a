import RangeCalc.Proofs.Eval.Locality

/-!
# Scopes and their history

A family of scopes is made by steps: a name is defined in a scope, or a new scope is derived from one
that is there. What a lookup finds can be told from these steps alone. What was last written to a
name in a scope is its last definition there, or else what the scope began with. A lookup goes from
a scope to the one it was derived from and on from there, and stops at the first in which something
was written to the name.

So a definition is seen in the scope it is made in and in every scope that is derived from it, sooner
or later, unless a nearer scope hides it, and nowhere else; and a new scope is not seen in any other.

* `History.written`, `History.lineage`: what the steps say of a scope;
* `History.getElem?_family`: what there is of that in the family itself;
* `History.get?_chain`: a lookup goes through the lineage;
* `History.Reaches`: the scopes from which a definition is found;
* `History.get_family`: the results of lookups, and what a further step changes about them.
-/

namespace RangeCalc

namespace Scope

variable {scope scope' : Scope} {name : Text}

theorem get_eq_ok_iff {value : Value} : scope.get name = .ok value ↔ scope.get? name = some value := by
  rw [get]
  cases scope.get? name <;> simp

theorem get_eq_error_iff {fault : Fault} :
    scope.get name = .error fault ↔ fault = .undefined name ∧ scope.get? name = none := by
  rw [get]
  cases scope.get? name <;> simp [eq_comm]

/-- What a lookup gives is settled by whether it finds something and what. -/
theorem get_congr (h : scope.get? name = scope'.get? name) : scope.get name = scope'.get name := by
  rw [get, get, h]

end Scope

namespace ScopeFamily

/-- What can be done to a family. -/
inductive Step
  /-- Defines a name in a scope. -/
  | define (i : Nat) (name : Text) (value : Value)
  /-- Derives a new scope from a scope. -/
  | overlay (i : Nat) (frame : Frame)

/-- The scope that a step is made on. -/
def Step.scope : Step → Nat
  | define i _ _ => i
  | overlay i _ => i

/-- The family after a step. -/
def Step.apply (family : ScopeFamily) : Step → ScopeFamily
  | define i name value => family.define i name value
  | overlay i frame => family.overlay i frame

/-- The steps that have been made, the latest first. -/
abbrev History := List Step

namespace History

/-- The family that the steps make of a single scope that binds nothing. -/
def family : History → ScopeFamily
  | [] => single
  | step :: earlier => step.apply (family earlier)

/-- How many scopes there are. -/
def count : History → Nat
  | [] => 1
  | .define .. :: earlier => count earlier
  | .overlay .. :: earlier => count earlier + 1

/-- Every step was made on a scope that was there. -/
def Valid : History → Prop
  | [] => True
  | step :: earlier => step.scope < count earlier ∧ Valid earlier

/-- What was last written to a name in a scope. Scopes derived from it, and the one that it is
derived from, do not count. -/
def written : History → (i : Nat) → (name : Text) → Option Value
  | [], _, _ => none
  | .define j defined value :: earlier, i, name =>
    if i = j ∧ name = defined then some value else written earlier i name
  | .overlay _ frame :: earlier, i, name =>
    if i = count earlier then frame.lookup name else written earlier i name

/-- The scope that a scope was derived from. -/
def parent? : History → (i : Nat) → Option Nat
  | [], _ => none
  | .define .. :: earlier, i => parent? earlier i
  | .overlay j _ :: earlier, i => if i = count earlier then some j else parent? earlier i

/-- A scope, the scope it was derived from, and so on up to the first scope. -/
def lineage : History → (i : Nat) → List Nat
  | [], i => [i]
  | .define .. :: earlier, i => lineage earlier i
  | .overlay j _ :: earlier, i =>
    if i = count earlier then i :: lineage earlier j else lineage earlier i

variable {history : History} {i j k : Nat} {name : Text} {frame : Frame}

/-! ## Scopes that were there before -/

theorem written_overlay_of_lt (h : i < history.count) (name : Text) :
    written (.overlay k frame :: history) i name = history.written i name :=
  if_neg (Nat.ne_of_lt h)

theorem parent?_overlay_of_lt (h : i < history.count) :
    parent? (.overlay k frame :: history) i = history.parent? i :=
  if_neg (Nat.ne_of_lt h)

theorem lineage_overlay_of_lt (h : i < history.count) :
    lineage (.overlay k frame :: history) i = history.lineage i :=
  if_neg (Nat.ne_of_lt h)

/-- A scope is either new or was there before. -/
theorem lt_or_eq_of_lt_count_overlay (h : i < count (.overlay k frame :: history)) :
    i < history.count ∨ i = history.count :=
  Nat.lt_succ_iff_lt_or_eq.1 h

/-! ## Where a scope comes from -/

/-- A scope is derived from one that was there before it. -/
theorem parent?_lt (valid : history.Valid) (h : history.parent? i = some j) : j < i := by
  induction history with
  | nil => cases h
  | cons step earlier ih =>
    obtain ⟨exists_scope, valid⟩ := valid
    cases step with
    | define => exact ih valid h
    | overlay k frame =>
      rw [parent?] at h
      split at h
      · cases h
        subst i
        exact exists_scope
      · exact ih valid h

/-- The scopes of a lineage were there before the scope, which is the last of them. -/
theorem le_of_mem_lineage (valid : history.Valid) (h : k ∈ history.lineage i) : k ≤ i := by
  induction history generalizing i with
  | nil => exact Nat.le_of_eq (List.mem_singleton.1 h)
  | cons step earlier ih =>
    obtain ⟨exists_scope, valid⟩ := valid
    cases step with
    | define => exact ih valid h
    | overlay j frame =>
      rw [lineage] at h
      split at h
      · rcases List.mem_cons.1 h with rfl | h
        · exact Nat.le_refl _
        · have le := ih valid h
          simp only [Step.scope] at exists_scope
          omega
      · exact ih valid h

/-- A lineage goes on with that of the scope that the scope was derived from. -/
theorem lineage_eq (valid : history.Valid) (h : i < history.count) :
    history.lineage i = i :: (parent? history i).elim [] (lineage history) := by
  induction history generalizing i with
  | nil => rfl
  | cons step earlier ih =>
    obtain ⟨exists_scope, valid⟩ := valid
    cases step with
    | define => exact ih valid h
    | overlay j frame =>
      rcases lt_or_eq_of_lt_count_overlay h with h | rfl
      · rw [lineage_overlay_of_lt h, parent?_overlay_of_lt h, ih valid h]
        cases derived : parent? earlier i with
        | none => rfl
        | some j' =>
          -- What it was derived from is no newer, so its lineage is not that of the new scope.
          have lt := parent?_lt valid derived
          rw [Option.elim_some, Option.elim_some, lineage_overlay_of_lt (Nat.lt_trans lt h)]
      · rw [lineage, if_pos rfl, parent?, if_pos rfl, Option.elim_some,
          lineage_overlay_of_lt (i := j) exists_scope]

/-! ## The scopes of the family -/

theorem length_family (history : History) : history.family.length = history.count := by
  induction history with
  | nil => rfl
  | cons step earlier ih =>
    cases step with
    | define => rw [family, Step.apply, ScopeFamily.define, List.length_modify, ih, count]
    | overlay => rw [family, Step.apply, ScopeFamily.overlay, List.length_append, ih]; rfl

/-- A scope of the family binds what was written in it, and knows the scope it was derived from. -/
theorem getElem?_family (h : i < history.count) :
    ∃ member, history.family[i]? = some member ∧
      (∀ name, member.frame.lookup name = history.written i name) ∧
      member.parent = history.parent? i := by
  induction history with
  | nil =>
    obtain rfl := Nat.lt_one_iff.1 h
    exact ⟨⟨[], none⟩, rfl, fun _ => rfl, rfl⟩
  | cons step earlier ih =>
    cases step with
    | define j defined value =>
      obtain ⟨member, found, bound, derived⟩ := ih h
      rw [family, Step.apply, ScopeFamily.define, List.getElem?_modify, found, Option.map_eq_map,
        Option.map_some]
      by_cases here : j = i
      · subst here
        rw [if_pos rfl]
        refine ⟨_, rfl, fun name => ?_, derived⟩
        rw [Frame.define, List.lookup_cons, written, bound]
        by_cases same : name = defined
        · rw [if_pos ⟨rfl, same⟩, beq_iff_eq.2 same]
        · rw [if_neg fun both => same both.2, beq_eq_false_iff_ne.2 same]
      · rw [if_neg here]
        refine ⟨member, rfl, fun name => ?_, derived⟩
        rw [bound, written, if_neg fun same => here same.1.symm]
    | overlay j frame =>
      rw [family, Step.apply, ScopeFamily.overlay]
      rcases lt_or_eq_of_lt_count_overlay h with h | rfl
      · obtain ⟨member, found, bound, derived⟩ := ih h
        refine ⟨member, ?_, fun name => ?_, ?_⟩
        · rw [List.getElem?_append_left (by rwa [length_family]), found]
        · rw [bound, written_overlay_of_lt h]
        · rw [derived, parent?_overlay_of_lt h]
      · refine ⟨⟨frame, some j⟩, ?_, fun name => ?_, ?_⟩
        · rw [← length_family, List.getElem?_concat_length]
        · rw [written, if_pos rfl]
        · rw [parent?, if_pos rfl]

/-- A lookup goes through the lineage of a scope up to the first scope in which something was
written to the name. -/
theorem get?_chain (valid : history.Valid) (h : i < history.count) (name : Text) :
    (history.family.chain i).get? name = (history.lineage i).findSome? (history.written · name) := by
  induction i using Nat.strongRecOn with
  | ind i ih =>
    obtain ⟨⟨frame, parent⟩, found, bound, derived⟩ := getElem?_family h
    rw [lineage_eq valid h, ScopeFamily.chain, found, ← derived, List.findSome?_cons, ← bound]
    cases parent with
    | none => cases here : frame.lookup name <;> simp [Scope.get?, here]
    | some j =>
      -- The chain goes on since it leads to an earlier scope.
      have lt : j < i := parent?_lt valid derived.symm
      simp only [if_pos lt, Option.elim_some]
      rw [Scope.get?_cons, ih j lt (Nat.lt_trans lt h)]
      cases frame.lookup name <;> rfl

/-! ## Results of lookups -/

/-- What is written to a name in the scope `i` is found from the scope `j`: it is `j` or one that `j`
comes from, and no nearer scope holds the name. -/
def Reaches (history : History) (i j : Nat) (name : Text) : Prop :=
  ∃ nearer farther, history.lineage j = nearer ++ i :: farther ∧
    ∀ k ∈ nearer, history.written k name = none

/-- Every scope is reached in which, and before which, nothing is written to the name. -/
theorem Reaches.of_mem {nearer farther : List Nat} (split : history.lineage j = nearer ++ farther)
    (unwritten : ∀ k ∈ nearer, history.written k name = none) (mem : i ∈ nearer) :
    history.Reaches i j name := by
  obtain ⟨before, after, rfl⟩ := List.append_of_mem mem
  refine ⟨before, after ++ farther, by rw [split, List.append_assoc, List.cons_append], ?_⟩
  exact fun k mem => unwritten k (List.mem_append_left _ mem)

/-- A lookup finds what was last written to the name in the nearest scope that holds it. -/
theorem get?_eq_some_iff (valid : history.Valid) (h : j < history.count) {value : Value} :
    (history.family.chain j).get? name = some value ↔
      ∃ i, history.Reaches i j name ∧ history.written i name = some value := by
  rw [get?_chain valid h, List.findSome?_eq_some_iff]
  constructor
  · rintro ⟨nearer, i, farther, split, holds, unwritten⟩
    exact ⟨i, ⟨nearer, farther, split, unwritten⟩, holds⟩
  · rintro ⟨i, ⟨nearer, farther, split, unwritten⟩, holds⟩
    exact ⟨nearer, i, farther, split, holds, unwritten⟩

/-- A lookup finds nothing if no scope that the scope comes from holds the name. -/
theorem get?_eq_none_iff (valid : history.Valid) (h : j < history.count) :
    (history.family.chain j).get? name = none ↔
      ∀ i ∈ history.lineage j, history.written i name = none := by
  rw [get?_chain valid h, List.findSome?_eq_none_iff]

/-- A name is in a scope if and only if one of the scopes that are looked through holds it. -/
theorem has_family_iff (valid : history.Valid) (h : j < history.count) :
    history.family.has j name = true ↔ ∃ i ∈ history.lineage j, history.written i name ≠ none := by
  rw [ScopeFamily.has, Option.isSome_iff_ne_none, Ne, get?_eq_none_iff valid h]
  simp only [not_forall, exists_prop, ne_eq]

/-- A new scope is not seen in those that were there before. -/
theorem get?_overlay (valid : history.Valid) (hi : i < history.count) (hj : j < history.count)
    (frame : Frame) (name : Text) :
    ((family (.overlay i frame :: history)).chain j).get? name =
      (history.family.chain j).get? name := by
  have old (k : Nat) (mem : k ∈ history.lineage j) :
      written (.overlay i frame :: history) k name = history.written k name :=
    written_overlay_of_lt (Nat.lt_of_le_of_lt (le_of_mem_lineage valid mem) hj) name
  have valid' : Valid (.overlay i frame :: history) := ⟨hi, valid⟩
  rw [get?_chain valid' (Nat.lt_succ_of_lt hj), get?_chain valid hj, lineage_overlay_of_lt hj,
    ← Function.id_comp (history.written · name), ← List.findSome?_map, ← List.map_congr_left old,
    List.findSome?_map, Function.id_comp]

/-- A definition is found from every scope that it reaches. -/
theorem get?_define_of_reaches (valid : history.Valid) (hi : i < history.count)
    (hj : j < history.count) (reaches : history.Reaches i j name) (value : Value) :
    ((family (.define i name value :: history)).chain j).get? name = some value := by
  have valid' : Valid (.define i name value :: history) := ⟨hi, valid⟩
  obtain ⟨nearer, farther, split, unwritten⟩ := reaches
  rw [get?_chain valid' hj, lineage, split, List.findSome?_append, List.findSome?_cons, written,
    if_pos ⟨rfl, rfl⟩]
  cases found : nearer.findSome? (written (.define i name value :: history) · name) with
  | none => rfl
  | some value' =>
    -- Nothing was written there before, so this is the definition itself.
    obtain ⟨k, mem, wrote⟩ := List.exists_of_findSome?_eq_some found
    rw [written, unwritten k mem] at wrote
    split at wrote
    · exact wrote.symm
    · cases wrote

/-- A definition changes nothing for other names and for scopes that it does not reach. -/
theorem get?_define_of_not_reaches (valid : history.Valid) (hi : i < history.count)
    (hj : j < history.count) {defined : Text} (value : Value)
    (h : name = defined → ¬ history.Reaches i j name) :
    ((family (.define i defined value :: history)).chain j).get? name =
      (history.family.chain j).get? name := by
  -- A scope that is reached is not the one with the definition, or the name is another.
  have same {k : Nat} (reaches : history.Reaches k j name) :
      written (.define i defined value :: history) k name = history.written k name := by
    refine if_neg ?_
    rintro ⟨rfl, eq⟩
    exact h eq reaches
  have valid' : Valid (.define i defined value :: history) := ⟨hi, valid⟩
  cases found : (history.family.chain j).get? name with
  | none =>
    rw [get?_eq_none_iff valid hj] at found
    refine (get?_eq_none_iff valid' hj).2 fun k mem => ?_
    rw [same (.of_mem (List.append_nil _).symm found mem), found k mem]
  | some value' =>
    obtain ⟨k, reaches, wrote⟩ := (get?_eq_some_iff valid hj).1 found
    refine (get?_eq_some_iff valid' hj).2 ⟨k, ?_, by rw [same reaches, wrote]⟩
    obtain ⟨nearer, farther, split, unwritten⟩ := reaches
    refine ⟨nearer, farther, split, fun n mem => ?_⟩
    rw [same (.of_mem split unwritten mem), unwritten n mem]

/-- Every scope of the family that any steps make, asked for any name, gives what was last written to
the name in the nearest scope that holds it, and reports a name that none of the scopes it comes from
holds. Deriving a further scope does not change what it gives. A definition changes that only if it is
one of the same name that reaches the scope from where it is made, and then the scope gives what is
defined. -/
theorem get_family (valid : history.Valid) (hj : j < history.count) (name : Text) :
    (∀ value, history.family.get j name = .ok value ↔
      ∃ i, history.Reaches i j name ∧ history.written i name = some value) ∧
    (∀ fault, history.family.get j name = .error fault ↔
      fault = .undefined name ∧ ∀ i ∈ history.lineage j, history.written i name = none) ∧
    (∀ i < history.count, ∀ frame,
      (history.family.overlay i frame).get j name = history.family.get j name) ∧
    (∀ i < history.count, ∀ defined value,
      (name = defined ∧ history.Reaches i j name →
        (history.family.define i defined value).get j name = .ok value) ∧
      (¬ (name = defined ∧ history.Reaches i j name) →
        (history.family.define i defined value).get j name = history.family.get j name)) := by
  refine ⟨fun value => ?_, fun fault => ?_, fun i hi frame => ?_, fun i hi defined value => ⟨?_, ?_⟩⟩
  · rw [ScopeFamily.get, Scope.get_eq_ok_iff, get?_eq_some_iff valid hj]
  · rw [ScopeFamily.get, Scope.get_eq_error_iff, get?_eq_none_iff valid hj]
  · exact Scope.get_congr (get?_overlay valid hi hj frame name)
  · rintro ⟨rfl, reaches⟩
    exact Scope.get_eq_ok_iff.2 (get?_define_of_reaches valid hi hj reaches value)
  · intro h
    exact Scope.get_congr (get?_define_of_not_reaches valid hi hj value fun eq reaches =>
      h ⟨eq, reaches⟩)

/-- A scope that is derived from one with a name of its own sees a new value of the name there, and
not one of the name further back. -/
theorem get_family_of_hidden :
    let history : History := [.define 0 "x" (.string "c"), .overlay 1 [("y", .string "b")],
      .overlay 0 [("x", .string "a")]]
    (history.Valid ∧ 2 < history.count) ∧
      history.family.get 2 "x" = .ok (.string "a") ∧
      (history.family.define 1 "x" (.string "d")).get 2 "x" = .ok (.string "d") ∧
      (history.family.define 0 "x" (.string "d")).get 2 "x" = history.family.get 2 "x" := by
  intro history
  have valid : history.Valid := ⟨by decide, by decide, by decide, trivial⟩
  obtain ⟨found, -, -, changed⟩ := get_family valid (by decide : 2 < history.count) "x"
  have seen : history.Reaches 1 2 "x" := ⟨[2], [0], rfl, by decide⟩
  have hidden : ¬ history.Reaches 0 2 "x" := by
    rintro ⟨_ | ⟨_, _ | ⟨_, nearer⟩⟩, farther, split, unwritten⟩
    · cases split
    · cases split
    · obtain ⟨-, tail⟩ := List.cons.inj (show [2, 1, 0] = _ from split)
      obtain ⟨rfl, -⟩ := List.cons.inj tail
      cases unwritten 1 (by simp)
  exact ⟨⟨valid, by decide⟩, (found _).2 ⟨1, seen, rfl⟩,
    (changed 1 (by decide) "x" _).1 ⟨rfl, seen⟩,
    (changed 0 (by decide) "x" _).2 fun both => hidden both.2⟩

end History

end ScopeFamily

end RangeCalc
