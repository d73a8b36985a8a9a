import Mathlib.Data.List.TakeWhile
import RangeCalc.Program.Outline
import RangeCalc.Proofs.Program.Concatenation

/-!
# What an outline tells

An outline shows a program without loss, but for numbers that are written alike.

The tree of a program shows everything but the numbers themselves, of which it has the texts. And the
layout shows the tree: the first line of a node has the label up to the tab, which tells what is below
the node, so it is known how many lines and nodes follow; only a program may have any number of
statements, and they go on to the end. Names, operators and numbers have no line feed in them, so a
line that holds one ends where it should. The same is asked of the texts that the program prints.

* `Number.not_newline_mem_plainText`: the text of a number is on one line;
* `Expr.Similar`, `Stmt.Similar`, `Program.Similar`: the same but for numbers that are written alike;
* `Program.tree_eq_tree_iff`: two programs have the same tree if and only if they are similar;
* `OutlineTree.Fits`: a tree has below its nodes what their labels say, and words on one line;
* `OutlineTree.layout_append_inj`: the layout tells such a tree, and where it ends in a longer text;
* `Program.outline_eq_iff`: two programs have the same outline if and only if they are similar.
-/

namespace RangeCalc

/-! ## The text of a number -/

namespace Decimal

/-- The characters that numbers are written with, infinity and what is no number included. -/
def isNumeric (c : Char) : Bool := c.isDigit || ['.', 'e', '+', '-', 'i', 'n', 'f', 'a'].contains c

theorem isNumeric_of_mem_ofNat {n : Nat} : ∀ c ∈ Text.ofNat n, isNumeric c = true := by
  intro c mem
  have digit : c.isDigit = true := Nat.isDigit_of_mem_toDigits (by decide) (by decide) mem
  rw [isNumeric, digit, Bool.true_or]

theorem isNumeric_of_mem_zeros (count : Nat) :
    ∀ c ∈ List.replicate count '0', isNumeric c = true := by
  intro c mem
  rw [List.eq_of_mem_replicate mem]
  rfl

theorem isNumeric_of_mem_significant (d : Decimal) :
    ∀ c ∈ d.significant, isNumeric c = true := by
  intro c mem
  have kept := List.dropWhile_subset _ (List.mem_reverse.1 mem)
  exact isNumeric_of_mem_ofNat c (List.mem_reverse.1 kept)

theorem isNumeric_of_mem_pointed {digits : Text} (h : ∀ c ∈ digits, isNumeric c = true)
    (places : Nat) : ∀ c ∈ pointed digits places, isNumeric c = true := by
  simp only [pointed, List.forall_mem_append, List.forall_mem_cons]
  refine ⟨⟨fun c mem => h c (List.mem_of_mem_take mem), isNumeric_of_mem_zeros _⟩, rfl, ?_⟩
  split
  · exact List.forall_mem_singleton.2 rfl
  · exact fun c mem => h c (List.mem_of_mem_drop mem)

theorem isNumeric_of_mem_exponentText (layout : Layout) (e : Int) :
    ∀ c ∈ layout.exponentText e, isNumeric c = true := by
  simp only [Layout.exponentText, List.cons_append, List.forall_mem_cons, List.forall_mem_append]
  refine ⟨rfl, ?_, isNumeric_of_mem_zeros _, isNumeric_of_mem_ofNat⟩
  split <;> rfl

theorem isNumeric_of_mem_text (layout : Layout) (d : Decimal) :
    ∀ c ∈ layout.text d, isNumeric c = true := by
  have digits := isNumeric_of_mem_significant d
  rw [Layout.text]
  simp only
  split
  · split
    · exact isNumeric_of_mem_pointed digits _
    · simp only [List.cons_append, List.forall_mem_cons, List.forall_mem_append]
      exact ⟨rfl, rfl, isNumeric_of_mem_zeros _, digits⟩
  · simp only [List.forall_mem_append]
    refine ⟨⟨fun c mem => digits c (List.mem_of_mem_take mem), ?_⟩,
      isNumeric_of_mem_exponentText layout _⟩
    split
    · exact List.forall_mem_nil _
    · exact List.forall_mem_cons.2 ⟨rfl, fun c mem => digits c (List.mem_of_mem_drop mem)⟩

end Decimal

namespace Number

open Decimal (isNumeric)

theorem isNumeric_of_mem_text (x : Float) : ∀ c ∈ text x, isNumeric c = true := by
  have sign (s : Float.Model.UnpackedFloat.Sign) : ∀ c ∈ signText s, isNumeric c = true := by
    cases s <;> exact List.all_eq_true.1 rfl
  rw [text]
  split
  · exact List.forall_mem_append.2 ⟨sign _, List.all_eq_true.1 rfl⟩
  · exact List.forall_mem_append.2 ⟨sign _, Decimal.isNumeric_of_mem_text _ _⟩
  · exact List.forall_mem_append.2 ⟨sign _, List.all_eq_true.1 rfl⟩
  · exact List.all_eq_true.1 rfl

theorem isNumeric_of_mem_plainText (x : Float) : ∀ c ∈ plainText x, isNumeric c = true := by
  rw [plainText]
  split
  · rename_i n _
    cases n with
    | ofNat n => exact Decimal.isNumeric_of_mem_ofNat
    | negSucc n => exact List.forall_mem_cons.2 ⟨rfl, Decimal.isNumeric_of_mem_ofNat⟩
  · exact isNumeric_of_mem_text x

/-- The text of a number is on one line. -/
theorem not_newline_mem_plainText (x : Float) : '\n' ∉ plainText x :=
  fun mem => absurd (isNumeric_of_mem_plainText x _ mem) (by decide)

end Number

/-! ## Programs that are written alike -/

/-- Two expressions are the same, but for numbers that have the same text. -/
inductive Expr.Similar : Expr → Expr → Prop
  | number {value value' : Float} (h : Number.plainText value = Number.plainText value') :
    Similar (number value) (number value')
  | ident (name : Text) : Similar (ident name) (ident name)
  | negate {operand operand' : Expr} (h : Similar operand operand') :
    Similar (negate operand) (negate operand')
  | binary {left left' right right' : Expr} (op : Text) (h₁ : Similar left left')
    (h₂ : Similar right right') : Similar (binary left op right) (binary left' op right')
  | range {first first' last last' : Expr} (h₁ : Similar first first') (h₂ : Similar last last') :
    Similar (range first last) (range first' last')
  | map {source source' body body' : Expr} (param : Text) (h₁ : Similar source source')
    (h₂ : Similar body body') : Similar (map source param body) (map source' param body')
  | reduce {source source' neutral neutral' body body' : Expr} (param₁ param₂ : Text)
    (h₁ : Similar source source') (h₂ : Similar neutral neutral') (h₃ : Similar body body') :
    Similar (reduce source neutral param₁ param₂ body) (reduce source' neutral' param₁ param₂ body')

/-- Two statements are the same, but for numbers that have the same text. -/
inductive Stmt.Similar : Stmt → Stmt → Prop
  | var {value value' : Expr} (name : Text) (h : value.Similar value') :
    Similar (var name value) (var name value')
  | out {value value' : Expr} (h : value.Similar value') : Similar (out value) (out value')
  | print (text : Text) : Similar (print text) (print text)

/-- Two programs are the same, but for numbers that have the same text. -/
def Program.Similar (program program' : Program) : Prop :=
  List.Forall₂ Stmt.Similar program program'

/-- Names are similar only to themselves. -/
theorem Expr.similar_ident_iff {name name' : Text} :
    (ident name).Similar (ident name') ↔ name = name' := by
  constructor
  · rintro ⟨⟩
    rfl
  · rintro rfl
    exact .ident name

/-! ## Trees of programs -/

/-- Expressions have the same tree if and only if they are the same, but for numbers that have the
same text. -/
theorem Expr.tree_eq_tree_iff {e e' : Expr} : e.tree = e'.tree ↔ e.Similar e' := by
  constructor
  · intro eq
    induction e generalizing e' with
    | number value =>
      cases e' with
      | number value' => exact .number (by simpa [tree] using eq)
      | _ => simp [tree] at eq
    | ident name =>
      cases e' with
      | ident name' =>
        obtain rfl : name = name' := by simpa [tree] using eq
        exact .ident name
      | _ => simp [tree] at eq
    | negate operand ih =>
      cases e' with
      | negate operand' => exact .negate (ih (by simpa [tree] using eq))
      | _ => simp [tree] at eq
    | binary left op right ih₁ ih₂ =>
      cases e' with
      | binary left' op' right' =>
        obtain ⟨first, rfl, last⟩ : left.tree = left'.tree ∧ op = op' ∧ right.tree = right'.tree := by
          simpa [tree] using eq
        exact .binary op (ih₁ first) (ih₂ last)
      | _ => simp [tree] at eq
    | range first last ih₁ ih₂ =>
      cases e' with
      | range first' last' =>
        obtain ⟨lower, upper⟩ : first.tree = first'.tree ∧ last.tree = last'.tree := by
          simpa [tree] using eq
        exact .range (ih₁ lower) (ih₂ upper)
      | _ => simp [tree] at eq
    | map source param body ih₁ ih₂ =>
      cases e' with
      | map source' param' body' =>
        obtain ⟨argument, rfl, lambda⟩ :
            source.tree = source'.tree ∧ param = param' ∧ body.tree = body'.tree := by
          simpa [tree] using eq
        exact .map param (ih₁ argument) (ih₂ lambda)
      | _ => simp [tree] at eq
    | reduce source neutral param₁ param₂ body ih₁ ih₂ ih₃ =>
      cases e' with
      | reduce source' neutral' param₁' param₂' body' =>
        obtain ⟨argument, start, rfl, rfl, lambda⟩ : source.tree = source'.tree ∧
            neutral.tree = neutral'.tree ∧ param₁ = param₁' ∧ param₂ = param₂' ∧
              body.tree = body'.tree := by
          simpa [tree] using eq
        exact .reduce param₁ param₂ (ih₁ argument) (ih₂ start) (ih₃ lambda)
      | _ => simp [tree] at eq
  · intro similar
    induction similar with
    | number same => rw [tree, tree, same]
    | ident => rfl
    | negate _ ih => rw [tree, tree, ih]
    | binary _ _ _ ih₁ ih₂ | range _ _ ih₁ ih₂ | map _ _ _ ih₁ ih₂ => rw [tree, tree, ih₁, ih₂]
    | reduce _ _ _ _ _ ih₁ ih₂ ih₃ => rw [tree, tree, ih₁, ih₂, ih₃]

theorem Stmt.tree_eq_tree_iff {stmt stmt' : Stmt} : stmt.tree = stmt'.tree ↔ stmt.Similar stmt' := by
  constructor
  · intro eq
    cases stmt with
    | var name value =>
      cases stmt' with
      | var name' value' =>
        obtain ⟨rfl, same⟩ : name = name' ∧ value.tree = value'.tree := by simpa [tree] using eq
        exact .var name (Expr.tree_eq_tree_iff.1 same)
      | _ => simp [tree] at eq
    | out value =>
      cases stmt' with
      | out value' => exact .out (Expr.tree_eq_tree_iff.1 (by simpa [tree] using eq))
      | _ => simp [tree] at eq
    | print text =>
      cases stmt' with
      | print text' =>
        obtain rfl : text = text' := by simpa [tree] using eq
        exact .print text
      | _ => simp [tree] at eq
  · intro similar
    cases similar with
    | var name same | out same => rw [tree, tree, Expr.tree_eq_tree_iff.2 same]
    | print => rfl

theorem Program.tree_eq_tree_iff {program program' : Program} :
    program.tree = program'.tree ↔ program.Similar program' := by
  have same : (fun stmt stmt' : Stmt => stmt.tree = stmt'.tree) = Stmt.Similar := by
    funext stmt stmt'
    exact propext Stmt.tree_eq_tree_iff
  have statements : program.map Stmt.tree = program'.map Stmt.tree ↔ program.Similar program' := by
    rw [Similar, ← same, ← List.forall₂_map_right_iff, ← List.forall₂_map_left_iff,
      List.forall₂_eq_eq_eq]
  rw [tree, tree, OutlineTree.node.injEq, statements]
  exact and_iff_right rfl

/-! ## Lines -/

/-- The names and operators of an expression are on one line each. -/
def Expr.SingleLine : Expr → Prop
  | number _ => True
  | ident name => '\n' ∉ name
  | negate operand => operand.SingleLine
  | binary left op right => left.SingleLine ∧ '\n' ∉ op ∧ right.SingleLine
  | range first last => first.SingleLine ∧ last.SingleLine
  | map source param body => source.SingleLine ∧ '\n' ∉ param ∧ body.SingleLine
  | reduce source neutral param₁ param₂ body =>
    source.SingleLine ∧ neutral.SingleLine ∧ '\n' ∉ param₁ ∧ '\n' ∉ param₂ ∧ body.SingleLine

/-- The names, operators and texts of a statement are on one line each. -/
def Stmt.SingleLine : Stmt → Prop
  | var name value => '\n' ∉ name ∧ value.SingleLine
  | out value => value.SingleLine
  | print text => '\n' ∉ text

namespace OutlineTree

variable {level : Nat} {text text' label label' rest rest' : Text}

/-- What stands before a character for the first time is known with what stands behind it. -/
theorem append_cons_inj {c : Char} (h : c ∉ text) (h' : c ∉ text')
    (eq : text ++ c :: rest = text' ++ c :: rest') : text = text' ∧ rest = rest' := by
  induction text generalizing text' with
  | nil =>
    cases text' with
    | nil => exact ⟨rfl, (List.cons.inj eq).2⟩
    | cons d text' => exact absurd (List.cons.inj eq).1 (List.ne_of_not_mem_cons h')
  | cons d text ih =>
    cases text' with
    | nil => exact absurd (List.cons.inj eq).1.symm (List.ne_of_not_mem_cons h)
    | cons d' text' =>
      obtain ⟨rfl, others⟩ := List.cons.inj eq
      obtain ⟨rfl, behind⟩ :=
        ih (List.not_mem_of_not_mem_cons h) (List.not_mem_of_not_mem_cons h') others
      exact ⟨rfl, behind⟩

/-- A line tells the text in it, and where it ends. -/
theorem line_append_inj (h : '\n' ∉ text) (h' : '\n' ∉ text')
    (eq : line level text ++ rest = line level text' ++ rest') : text = text' ∧ rest = rest' := by
  simp only [line, List.append_assoc, List.append_cancel_left_eq, List.singleton_append] at eq
  exact append_cons_inj h h' eq

/-- What is on the first line of a node. -/
def heading (label : Text) : (word? : Option Text) → Text
  | none => label
  | some text => label ++ '\t' :: text

/-- A heading is on one line if its label and its word are. -/
theorem not_newline_mem_heading {word? : Option Text} (h : '\n' ∉ label)
    (hword : ∀ text, word? = some text → '\n' ∉ text) : '\n' ∉ heading label word? := by
  cases word? with
  | none => exact h
  | some text =>
    rw [heading, List.mem_append, List.mem_cons]
    rintro (mem | tab | mem)
    · exact h mem
    · exact absurd tab (by decide)
    · exact hword text rfl mem

/-- The label goes up to the tab, or to the end of the heading. -/
theorem takeWhile_heading (h : '\t' ∉ label) (word? : Option Text) :
    (heading label word?).takeWhile (· != '\t') = label := by
  have all : ∀ c ∈ label, (c != '\t') = true := by
    intro c mem
    simpa using ne_of_mem_of_not_mem mem h
  cases word? with
  | none => simp [heading, List.takeWhile_eq_self_iff.2 all]
  | some text => simp [heading, List.takeWhile_append_of_pos all]

/-- A heading tells the label, and the word behind it if there is one. -/
theorem heading_inj {word? word?' : Option Text} (h : '\t' ∉ label) (h' : '\t' ∉ label')
    (eq : heading label word? = heading label' word?') : label = label' ∧ word? = word?' := by
  obtain rfl : label = label' := by
    rw [← takeWhile_heading h word?, eq, takeWhile_heading h' word?']
  refine ⟨rfl, ?_⟩
  cases word? with
  | none =>
    cases word?' with
    | none => rfl
    | some text' => simp [heading] at eq
  | some text =>
    cases word?' with
    | none => simp [heading] at eq
    | some text' => simpa [heading] using eq

/-! ## Trees that fit -/

/-- What the nodes of a program have below them, by their labels: words of some kind, or nodes. -/
def signature : List (Text × List (Option Text)) := [
  ("number", [some "NUMBER"]),
  ("ident", [some "IDENT"]),
  ("neg", [none]),
  ("binop", [none, some "OP", none]),
  ("sequence", [none, none]),
  ("map", [none, some "IDENT", none]),
  ("reduce", [none, none, some "IDENT", some "IDENT", none]),
  ("var", [some "IDENT", none]),
  ("out", [none]),
  ("print", [some "STRING"])]

/-- A label has one line, and no tab in it. -/
theorem not_mem_label : ∀ entry ∈ signature, '\t' ∉ entry.1 ∧ '\n' ∉ entry.1 := by decide

/-- A label tells what is below. -/
theorem below_eq_of_label_eq :
    ∀ entry ∈ signature, ∀ entry' ∈ signature, entry.1 = entry'.1 → entry.2 = entry'.2 := by
  decide

mutual

/-- A tree is a word of the given kind on one line, or a node that has below it what its label
says. -/
inductive Fits : Option Text → OutlineTree → Prop
  | word {kind text : Text} (one_line : '\n' ∉ text) : Fits (some kind) (word kind text)
  | node {label : Text} {below : List (Option Text)} {children : List OutlineTree}
    (known : (label, below) ∈ signature) (fit : FitsAll below children) :
    Fits none (node label children)

/-- Trees are one by one what is asked for. -/
inductive FitsAll : List (Option Text) → List OutlineTree → Prop
  | nil : FitsAll [] []
  | cons {kind? : Option Text} {kinds : List (Option Text)} {tree : OutlineTree}
    {trees : List OutlineTree} (first : Fits kind? tree) (others : FitsAll kinds trees) :
    FitsAll (kind? :: kinds) (tree :: trees)

end

theorem layout_node (level : Nat) (label : Text) (children : List OutlineTree) :
    (node label children).layout level = line level (heading label (onlyWord? children)) ++
      if (onlyWord? children).isSome then [] else layoutAll (level + 1) children := by
  rw [layout]
  cases onlyWord? children with
  | none => rfl
  | some text => exact (List.append_nil _).symm

variable {below below' : List (Option Text)} {tree tree' : OutlineTree}
  {trees trees' : List OutlineTree}

/-- A single word below a node is all there is below it. -/
theorem eq_of_onlyWord? (h : onlyWord? trees = some text) : ∃ kind, trees = [word kind text] := by
  rw [onlyWord?.eq_def] at h
  split at h
  · cases h
    exact ⟨_, rfl⟩
  · cases h

theorem FitsAll.not_newline_mem_onlyWord (h : FitsAll below trees) :
    ∀ text, onlyWord? trees = some text → '\n' ∉ text := by
  intro text only
  obtain ⟨kind, rfl⟩ := eq_of_onlyWord? only
  cases h with
  | cons first _ =>
    cases first with
    | word one_line => exact one_line

/-- A word is of the kind that is asked for. -/
theorem FitsAll.kind_eq {kind kind' : Text} (h : FitsAll below [word kind text])
    (h' : FitsAll below [word kind' text']) : kind = kind' := by
  cases h with
  | cons first _ =>
    cases h' with
    | cons first' _ =>
      cases first with
      | word _ =>
        cases first' with
        | word _ => rfl

mutual

/-- The layout tells a tree, and in a longer text it tells where the tree ends. -/
theorem layout_append_inj {kind? : Option Text} {level : Nat} {rest rest' : Text}
    {tree tree' : OutlineTree} (h : Fits kind? tree) (h' : Fits kind? tree')
    (eq : tree.layout level ++ rest = tree'.layout level ++ rest') : tree = tree' ∧ rest = rest' := by
  match h, h' with
  | .word one_line, .word one_line' =>
    obtain ⟨rfl, ends⟩ := line_append_inj one_line one_line' eq
    exact ⟨rfl, ends⟩
  | @Fits.node label below children known fit, @Fits.node label' below' children' known' fit' =>
    obtain ⟨no_tab, one_line⟩ := not_mem_label _ known
    obtain ⟨no_tab', one_line'⟩ := not_mem_label _ known'
    rw [layout_node, layout_node, List.append_assoc, List.append_assoc] at eq
    obtain ⟨headings, behind⟩ := line_append_inj
      (not_newline_mem_heading one_line fit.not_newline_mem_onlyWord)
      (not_newline_mem_heading one_line' fit'.not_newline_mem_onlyWord) eq
    obtain ⟨rfl, words⟩ := heading_inj no_tab no_tab' headings
    obtain rfl : below = below' := below_eq_of_label_eq _ known _ known' rfl
    rw [← words] at behind
    cases only : onlyWord? children with
    | some text =>
      -- The word is on the first line, and nothing is below it.
      rw [only] at words behind
      obtain ⟨kind, rfl⟩ := eq_of_onlyWord? only
      obtain ⟨kind', rfl⟩ := eq_of_onlyWord? words.symm
      obtain rfl : kind = kind' := fit.kind_eq fit'
      exact ⟨rfl, behind⟩
    | none =>
      rw [only] at behind
      obtain ⟨rfl, ends⟩ := layoutAll_append_inj fit fit' behind
      exact ⟨rfl, ends⟩
termination_by structural h

/-- The layout tells trees one below the other if it is known what they are. -/
theorem layoutAll_append_inj {below : List (Option Text)} {level : Nat} {rest rest' : Text}
    {trees trees' : List OutlineTree} (h : FitsAll below trees) (h' : FitsAll below trees')
    (eq : layoutAll level trees ++ rest = layoutAll level trees' ++ rest') :
    trees = trees' ∧ rest = rest' := by
  match h, h' with
  | .nil, .nil => exact ⟨rfl, eq⟩
  | .cons first others, .cons first' others' =>
    rw [layoutAll, layoutAll, List.append_assoc, List.append_assoc] at eq
    obtain ⟨rfl, behind⟩ := layout_append_inj first first' eq
    obtain ⟨rfl, ends⟩ := layoutAll_append_inj others others' behind
    exact ⟨rfl, ends⟩
termination_by structural h

end

theorem layout_ne_nil (tree : OutlineTree) (level : Nat) : tree.layout level ≠ [] := by
  cases tree with
  | word kind text => simp [layout, line]
  | node label children => simp [layout_node, line]

/-- The layout tells nodes one below the other that go on to the end. -/
theorem eq_of_layoutAll_eq {level : Nat} (h : ∀ tree ∈ trees, Fits none tree)
    (h' : ∀ tree ∈ trees', Fits none tree) (eq : layoutAll level trees = layoutAll level trees') :
    trees = trees' := by
  induction trees generalizing trees' with
  | nil =>
    cases trees' with
    | nil => rfl
    | cons tree' trees' =>
      rw [layoutAll, layoutAll] at eq
      exact absurd (List.append_eq_nil_iff.1 eq.symm).1 (tree'.layout_ne_nil level)
  | cons tree trees ih =>
    cases trees' with
    | nil =>
      rw [layoutAll, layoutAll] at eq
      exact absurd (List.append_eq_nil_iff.1 eq).1 (tree.layout_ne_nil level)
    | cons tree' trees' =>
      obtain ⟨here, later⟩ := List.forall_mem_cons.1 h
      obtain ⟨here', later'⟩ := List.forall_mem_cons.1 h'
      rw [layoutAll, layoutAll] at eq
      obtain ⟨rfl, behind⟩ := layout_append_inj here here' eq
      rw [ih later later' behind]

end OutlineTree

open OutlineTree (Fits)

/-! ## Programs -/

/-- The tree of an expression whose names and operators are on one line each fits. -/
theorem Expr.SingleLine.fits {e : Expr} (h : e.SingleLine) : Fits none e.tree := by
  induction e with
  | number value =>
    exact .node (by decide) (.cons (.word (Number.not_newline_mem_plainText value)) .nil)
  | ident name => exact .node (by decide) (.cons (.word h) .nil)
  | negate operand ih => exact .node (by decide) (.cons (ih h) .nil)
  | binary left op right ih₁ ih₂ =>
    obtain ⟨hleft, hop, hright⟩ := h
    exact .node (by decide) (.cons (ih₁ hleft) (.cons (.word hop) (.cons (ih₂ hright) .nil)))
  | range first last ih₁ ih₂ =>
    obtain ⟨hfirst, hlast⟩ := h
    exact .node (by decide) (.cons (ih₁ hfirst) (.cons (ih₂ hlast) .nil))
  | map source param body ih₁ ih₂ =>
    obtain ⟨hsource, hparam, hbody⟩ := h
    exact .node (by decide) (.cons (ih₁ hsource) (.cons (.word hparam) (.cons (ih₂ hbody) .nil)))
  | reduce source neutral param₁ param₂ body ih₁ ih₂ ih₃ =>
    obtain ⟨hsource, hneutral, hparam₁, hparam₂, hbody⟩ := h
    exact .node (by decide) (.cons (ih₁ hsource) (.cons (ih₂ hneutral)
      (.cons (.word hparam₁) (.cons (.word hparam₂) (.cons (ih₃ hbody) .nil)))))

theorem Stmt.SingleLine.fits {stmt : Stmt} (h : stmt.SingleLine) : Fits none stmt.tree := by
  cases stmt with
  | var name value =>
    obtain ⟨hname, hvalue⟩ := h
    exact .node (by decide) (.cons (.word hname) (.cons hvalue.fits .nil))
  | out value =>
    have hvalue : value.SingleLine := h
    exact .node (by decide) (.cons hvalue.fits .nil)
  | print text => exact .node (by decide) (.cons (.word h) .nil)

/-- The expression of a phrase has its names and operators on one line, since no token but a string
has a line feed in it. -/
theorem Expr.Derives.singleLine {phrase : Phrase} {height : Nat} {tokens : List Token} {e : Expr}
    (h : Expr.Derives phrase height tokens e)
    (words : ∀ token ∈ tokens, token.kind ≠ .string → '\n' ∉ token.text) : e.SingleLine := by
  have word {token : Token} {kind : Token.Kind} (fine : token.kind ≠ .string → '\n' ∉ token.text)
      (eq : token.kind = kind) (ne : kind ≠ .string) : '\n' ∉ token.text := fine (eq ▸ ne)
  induction h with
  | sum _ ih | product _ ih | power _ ih => exact ih words
  | add _ sign _ ih₁ ih₂ | multiply _ sign _ ih₁ ih₂ =>
    obtain ⟨first, rest⟩ := List.forall_mem_append.1 words
    obtain ⟨here, last⟩ := List.forall_mem_cons.1 rest
    exact ⟨ih₁ first, sign.elim (word here · nofun) (word here · nofun), ih₂ last⟩
  | raise _ sign _ ih₁ ih₂ =>
    obtain ⟨first, rest⟩ := List.forall_mem_append.1 words
    obtain ⟨here, last⟩ := List.forall_mem_cons.1 rest
    exact ⟨ih₁ first, word here sign nofun, ih₂ last⟩
  | number | negateNumber => exact trivial
  | ident kind => exact word (words _ (by simp)) kind nofun
  | negateIdent _ kind => exact word (words _ (by simp)) kind nofun
  | negateGroup _ _ _ _ ih | group _ _ _ ih =>
    refine ih fun token mem => words token ?_
    simp [mem]
  | range _ _ _ _ _ ih₁ ih₂ =>
    refine ⟨ih₁ fun token mem => words token ?_, ih₂ fun token mem => words token ?_⟩
    · simp [mem]
    · simp [mem]
  | map _ _ _ _ name _ _ _ ih₁ ih₂ =>
    refine ⟨ih₁ fun token mem => words token ?_, word (words _ (by simp)) name nofun,
      ih₂ fun token mem => words token ?_⟩
    · simp [mem]
    · simp [mem]
  | reduce _ _ _ _ _ _ name₁ name₂ _ _ _ ih₁ ih₂ ih₃ =>
    refine ⟨ih₁ fun token mem => words token ?_, ih₂ fun token mem => words token ?_,
      word (words _ (by simp)) name₁ nofun, word (words _ (by simp)) name₂ nofun,
      ih₃ fun token mem => words token ?_⟩
    · simp [mem]
    · simp [mem]
    · simp [mem]

namespace Program

/-- The statements of a program that was parsed are on one line each, if the texts are that it
prints. -/
theorem singleLine_of_ofText {source : Text} {program : Program} (parsed : ofText source = .ok program)
    (printed : ∀ text, .print text ∈ program → '\n' ∉ text) :
    ∀ stmt ∈ program, stmt.SingleLine := by
  have words : ∀ token ∈ Token.scan source, token.kind ≠ .string → '\n' ∉ token.text :=
    fun token mem no_string newline =>
      absurd (Token.not_gap_of_mem_text mem no_string '\n' newline) (by decide)
  have derives := ofText_eq_ok_iff.1 parsed
  clear parsed
  generalize Token.scan source = tokens at words derives
  induction derives with
  | nil => exact List.forall_mem_nil _
  | @cons tokens₁ tokens₂ stmt program first _ ih =>
    obtain ⟨here, later⟩ := List.forall_mem_append.1 words
    have printed_later : ∀ text, .print text ∈ program → '\n' ∉ text :=
      fun text mem => printed text (List.mem_cons_of_mem _ mem)
    refine List.forall_mem_cons.2 ⟨?_, ih printed_later later⟩
    cases first with
    | var _ kind _ _ expr =>
      exact ⟨here _ (by simp) (by rw [kind]; nofun),
        expr.singleLine fun token mem => here token (by simp [mem])⟩
    | out _ _ expr => exact expr.singleLine fun token mem => here token (by simp [mem])
    | print _ _ _ => exact printed _ List.mem_cons_self

/-- Statements are nodes, and follow the first line of an outline one after the other. -/
theorem outline_eq (program : Program) :
    program.outline =
      OutlineTree.line 0 "program" ++ OutlineTree.layoutAll 1 (program.map Stmt.tree) := by
  have nodes : OutlineTree.onlyWord? (program.map Stmt.tree) = none := by
    cases program with
    | nil => rfl
    | cons stmt program => cases stmt <;> rfl
  rw [outline, tree, OutlineTree.layout_node, nodes]
  rfl

example : outline [.var "x" (.negate (.ident "y")), .print "a"] =
    "program\n  var\n    x\n    neg\n      ident\ty\n  print\ta\n" := by decide

/-- Programs that print no text of several lines have the same outline if and only if they are the
same, but for numbers that have the same text. -/
theorem outline_eq_iff {source source' : Text} {program program' : Program}
    (parsed : ofText source = .ok program) (parsed' : ofText source' = .ok program')
    (printed : ∀ text, .print text ∈ program → '\n' ∉ text)
    (printed' : ∀ text, .print text ∈ program' → '\n' ∉ text) :
    program.outline = program'.outline ↔ program.Similar program' := by
  have fits {source : Text} {program : Program} (parsed : ofText source = .ok program)
      (printed : ∀ text, .print text ∈ program → '\n' ∉ text) :
      ∀ tree ∈ program.map Stmt.tree, Fits none tree :=
    List.forall_mem_map.2 fun stmt mem => (singleLine_of_ofText parsed printed stmt mem).fits
  constructor
  · intro eq
    rw [outline_eq, outline_eq] at eq
    have statements := OutlineTree.eq_of_layoutAll_eq (fits parsed printed) (fits parsed' printed')
      (List.append_cancel_left eq)
    exact tree_eq_tree_iff.1 (congrArg (OutlineTree.node "program") statements)
  · intro similar
    exact congrArg (OutlineTree.layout 0) (tree_eq_tree_iff.2 similar)

/-- Two programs that differ in the sign of a zero have the same outline, and one that has another
name in it does not. A name may be the label of a node. -/
theorem outline_eq_iff_of_negative_zero :
    ∃ positive negative other,
      ofText "out neg + 0" = .ok positive ∧ ofText "out neg + -0" = .ok negative ∧
      ofText "out ident + 0" = .ok other ∧
      positive ≠ negative ∧ positive.outline = negative.outline ∧
      positive.outline ≠ other.outline := by
  have positive : ofText "out neg + 0" =
      .ok [.out (.binary (.ident "neg") "+" (.number (Number.ofDecimal 0 0)))] := by
    have scanned : Token.scan "out neg + 0" =
        [⟨.out, "out", 0⟩, ⟨.ident, "neg", 4⟩, ⟨.plus, "+", 8⟩, ⟨.number, "0", 10⟩] := by
      decide +kernel
    rw [ofText, scanned]
    rfl
  have negative : ofText "out neg + -0" =
      .ok [.out (.binary (.ident "neg") "+" (.number (-Number.ofDecimal 0 0)))] := by
    have scanned : Token.scan "out neg + -0" =
        [⟨.out, "out", 0⟩, ⟨.ident, "neg", 4⟩, ⟨.plus, "+", 8⟩, ⟨.number, "-0", 10⟩] := by
      decide +kernel
    rw [ofText, scanned]
    rfl
  have other : ofText "out ident + 0" =
      .ok [.out (.binary (.ident "ident") "+" (.number (Number.ofDecimal 0 0)))] := by
    have scanned : Token.scan "out ident + 0" =
        [⟨.out, "out", 0⟩, ⟨.ident, "ident", 4⟩, ⟨.plus, "+", 10⟩, ⟨.number, "0", 12⟩] := by
      decide +kernel
    rw [ofText, scanned]
    rfl
  have signs : Number.ofDecimal 0 0 ≠ -Number.ofDecimal 0 0 := by decide +kernel
  refine ⟨_, _, _, positive, negative, other, by simp [signs], ?_, ?_⟩
  · rw [outline_eq_iff positive negative (by simp) (by simp)]
    exact .cons (.out (.binary "+" (.ident "neg") (.number rfl))) .nil
  · rw [Ne, outline_eq_iff positive other (by simp) (by simp)]
    intro similar
    cases similar with
    | cons first _ =>
      cases first with
      | out same =>
        cases same with
        | binary _ names _ => exact absurd (Expr.similar_ident_iff.1 names) (by decide)

end Program

end RangeCalc
