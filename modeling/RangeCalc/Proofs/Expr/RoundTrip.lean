import RangeCalc.Expr.Render
import RangeCalc.Proofs.Program.Completeness
import RangeCalc.Proofs.Token.Lexeme

/-!
# Parsing undoes rendering

The text of an expression is a phrase of the grammar that denotes the expression: its tokens are
those that the grammar asks for, because every name and number in it is followed by a blank, a comma
or a closing bracket, and every operand that is an operation stands in parentheses. So parsing gives
the expression back, unless the text opens too many levels, and then it fails for this reason and no
other.

* `Expr.levels`: how many levels the text of an expression opens;
* `Expr.readsAs_of_writable`: the tokens of the text of an expression;
* `Expr.ofText_out_render`: what comes of parsing it.
-/

namespace RangeCalc

namespace Expr

open Token (Scans IsName ends)

/-! ## The text of an expression -/

/-- The text of an expression as an operand. -/
def operandText (e : Expr) : Text := if e.isBinary then parenthesised e.render else e.render

/-- How many levels the text of an expression opens inside the one it stands in: one for each group,
bound, argument and lambda body, and one for the right operand of `^`. -/
def nesting : Expr → Nat
  | number _ => 0
  | ident _ => 0
  | negate operand => if operand.isIdent then 0 else operand.nesting + 1
  | binary left op right =>
    max (if left.isBinary then left.nesting + 1 else left.nesting)
      ((if right.isBinary then right.nesting + 1 else right.nesting) +
        if op = ("^" : Text) then 1 else 0)
  | range first last => max (first.nesting + 1) (last.nesting + 1)
  | map source _ body => max (source.nesting + 1) (body.nesting + 1)
  | reduce source neutral _ _ body =>
    max (source.nesting + 1) (max (neutral.nesting + 1) (body.nesting + 1))

/-- How many levels the text of an expression opens, its own included. -/
def levels (e : Expr) : Nat := e.nesting + 1

/-- How many levels the text of an expression opens as an operand. -/
def operandNesting (e : Expr) : Nat := if e.isBinary then e.nesting + 1 else e.nesting

/-- The operators that a program can write. -/
def operators : List Text := ["+", "-", "*", "/", "^"]

/-- The expressions whose names, operators and numbers a program can write. -/
inductive Writable : Expr → Prop
  | number {value : Float}
      (scanned : Token.scan (Number.plainText value) = [⟨.number, Number.plainText value, 0⟩])
      (read : Number.read? (Number.plainText value) = some value) : Writable (.number value)
  | ident {name : Text} (isName : IsName name) : Writable (.ident name)
  | negate {operand : Expr} (inner : Writable operand) : Writable (.negate operand)
  | binary {left right : Expr} {op : Text} (first : Writable left) (sign : op ∈ operators)
      (last : Writable right) : Writable (.binary left op right)
  | range {first last : Expr} (lower : Writable first) (upper : Writable last) :
      Writable (.range first last)
  | map {source body : Expr} {param : Text} (argument : Writable source) (isName : IsName param)
      (lambda : Writable body) : Writable (.map source param body)
  | reduce {source neutral body : Expr} {param₁ param₂ : Text} (argument : Writable source)
      (start : Writable neutral) (isName₁ : IsName param₁) (isName₂ : IsName param₂)
      (lambda : Writable body) : Writable (.reduce source neutral param₁ param₂ body)

section Render

variable (first second third : Expr) (param₁ param₂ op : Text)

theorem render_negate : (negate first).render =
    '-' :: (if first.isIdent then first.render else parenthesised first.render) :=
  rfl

theorem render_binary : (binary first op second).render =
    first.operandText ++ ' ' :: (op ++ ' ' :: second.operandText) := by
  show first.operandText ++ " " ++ op ++ " " ++ second.operandText = _
  simp only [List.append_assoc]
  rfl

theorem render_range : (range first second).render =
    '\x7b' :: (first.render ++ ',' :: ' ' :: (second.render ++ ['\x7d'])) := by
  show "\x7b" ++ first.render ++ ", " ++ second.render ++ "\x7d" = _
  simp only [List.append_assoc]
  rfl

theorem render_map : (map first param₁ second).render =
    'm' :: 'a' :: 'p' :: '(' :: (first.render ++ ',' :: ' ' :: (param₁ ++
      ' ' :: '-' :: '>' :: ' ' :: (second.render ++ [')']))) := by
  show "map(" ++ first.render ++ ", " ++ param₁ ++ " -> " ++ second.render ++ ")" = _
  simp only [List.append_assoc]
  rfl

theorem render_reduce : (reduce first second param₁ param₂ third).render =
    'r' :: 'e' :: 'd' :: 'u' :: 'c' :: 'e' :: '(' :: (first.render ++ ',' :: ' ' ::
      (second.render ++ ',' :: ' ' :: (param₁ ++ ' ' :: (param₂ ++
        ' ' :: '-' :: '>' :: ' ' :: (third.render ++ [')']))))) := by
  show "reduce(" ++ first.render ++ ", " ++ second.render ++ ", " ++ param₁ ++ " " ++ param₂ ++
    " -> " ++ third.render ++ ")" = _
  simp only [List.append_assoc]
  rfl

end Render

/-! ## Its tokens -/

/-- The text of an expression is a sum that denotes it, and as an operand a primary. -/
structure ReadsAs (e : Expr) : Prop where
  whole : ∀ rest, ends rest = true → Scans e.render rest (Derives .sum (e.nesting + 1) · e)
  operand : ∀ rest, ends rest = true →
    Scans e.operandText rest (Derives .primary e.operandNesting · e)

/-- A primary is a sum by itself. -/
theorem ReadsAs.of_primary {e : Expr} (h : e.isBinary = false)
    (primary : ∀ rest, ends rest = true → Scans e.render rest (Derives .primary e.nesting · e)) :
    ReadsAs e := by
  refine ⟨fun rest hrest => ?_, fun rest hrest => ?_⟩
  · exact (primary rest hrest).mono fun tokens derives => .sum (.product (.power derives))
  · rw [operandText, operandNesting, h, if_neg Bool.false_ne_true, if_neg Bool.false_ne_true]
    exact primary rest hrest

/-- An operation becomes a primary by parentheses. -/
theorem ReadsAs.of_binary {e : Expr} (h : e.isBinary = true)
    (whole : ∀ rest, ends rest = true → Scans e.render rest (Derives .sum (e.nesting + 1) · e)) :
    ReadsAs e := by
  refine ⟨whole, fun rest hrest => ?_⟩
  rw [operandText, operandNesting, h, if_pos rfl, if_pos rfl]
  refine .token '(' [] rfl fun lpar opening _ => ?_
  refine (whole _ rfl).append fun tokens inner => ?_
  refine .token ')' [] rfl fun rpar closing _ => ?_
  exact .nil (.group opening inner closing)

theorem readsAs_number {value : Float}
    (scanned : Token.scan (Number.plainText value) = [⟨.number, Number.plainText value, 0⟩])
    (read : Number.read? (Number.plainText value) = some value) : ReadsAs (.number value) := by
  refine .of_primary rfl fun rest hrest => ?_
  have reads : Scans (Number.plainText value ++ []) rest
      (Derives .primary 0 · (.number value)) := by
    refine .number scanned hrest fun token kind text => .nil (.number kind ?_)
    rw [text, read]
  rwa [List.append_nil] at reads

theorem readsAs_ident {name : Text} (isName : IsName name) : ReadsAs (.ident name) := by
  refine .of_primary rfl fun rest hrest => ?_
  have reads : Scans (name ++ []) rest (Derives .primary 0 · (.ident name)) :=
    .name isName hrest fun token kind text => .nil (text ▸ .ident kind)
  rwa [List.append_nil] at reads

/-- A minus sign stands before a name, or else before a group. -/
theorem readsAs_negate {operand : Expr} (writable : Writable operand) (inner : ReadsAs operand) :
    ReadsAs (.negate operand) := by
  refine .of_primary rfl fun rest hrest => ?_
  by_cases isIdent : operand.isIdent = true
  · -- A minus sign next to a name could start an arrow or a number, but for the letter behind it.
    cases writable with
    | @ident name isName =>
      have minus : Token.lexemeAt '-' (name ++ [] ++ rest) = (some .minus, ['-']) := by
        cases isName with
        | word start others not_keyword => exact Token.lexemeAt_minus start _
      have reads : Scans ('-' :: (name ++ [])) rest
          (Derives .primary 0 · (.negate (.ident name))) := by
        refine .token '-' [] minus fun minus sign _ => ?_
        exact .name isName hrest fun token kind text => .nil (text ▸ .negateIdent sign kind)
      rwa [List.append_nil] at reads
    | _ => cases isIdent
  · rw [render_negate, nesting, if_neg isIdent, if_neg isIdent]
    refine .token '-' [] rfl fun minus sign _ => ?_
    refine .token '(' [] rfl fun lpar opening _ => ?_
    refine (inner.whole _ rfl).append fun tokens inner => ?_
    refine .token ')' [] rfl fun rpar closing _ => ?_
    exact .nil (.negateGroup sign opening inner closing)

/-- An operator stands between two blanks. -/
theorem readsAs_binary_of {left right : Expr} {c : Char} {kind : Token.Kind}
    (lexeme : ∀ rest, Token.lexemeAt c (' ' :: rest) = (some kind, [c]))
    (first : ReadsAs left) (last : ReadsAs right)
    (derives : ∀ {op : Token} {tokens₁ tokens₂ : List Token}, op.kind = kind →
      Derives .primary left.operandNesting tokens₁ left →
      Derives .primary right.operandNesting tokens₂ right →
        Derives .sum ((binary left [c] right).nesting + 1) (tokens₁ ++ op :: tokens₂)
          (.binary left op.text right)) :
    ReadsAs (.binary left [c] right) := by
  refine .of_binary rfl fun rest hrest => ?_
  rw [render_binary]
  refine (first.operand _ rfl).append fun tokens₁ first => .blank ?_
  refine .token c [] (lexeme _) fun op sign text => .blank ?_
  exact (last.operand rest hrest).mono fun tokens₂ last => text ▸ derives sign first last

theorem nesting_binary_of_ne (left right : Expr) {op : Text} (h : op ≠ "^") :
    (binary left op right).nesting = max left.operandNesting right.operandNesting := by
  show max left.operandNesting (right.operandNesting + if op = _ then 1 else 0) = _
  rw [if_neg h, Nat.add_zero]

/-- The operators differ in how tightly they bind, and all operands are primaries. -/
theorem readsAs_binary {left right : Expr} {op : Text} (first : ReadsAs left)
    (sign : op ∈ operators) (last : ReadsAs right) : ReadsAs (.binary left op right) := by
  simp only [operators, List.mem_cons, List.not_mem_nil, or_false] at sign
  -- The operands stand for any phrase that the operator asks for, and only `^` opens a level.
  rcases sign with rfl | rfl | rfl | rfl | rfl
  · refine readsAs_binary_of (c := '+') (fun _ => rfl) first last fun sign first last => ?_
    rw [nesting_binary_of_ne left right (by decide), ← Nat.add_max_add_right]
    exact .add (.sum (.product (.power first))) (.inl sign) (.product (.power last))
  · refine readsAs_binary_of (c := '-') (fun _ => rfl) first last fun sign first last => ?_
    rw [nesting_binary_of_ne left right (by decide), ← Nat.add_max_add_right]
    exact .add (.sum (.product (.power first))) (.inr sign) (.product (.power last))
  · refine readsAs_binary_of (c := '*') (fun _ => rfl) first last fun sign first last => ?_
    rw [nesting_binary_of_ne left right (by decide)]
    exact .sum (.multiply (.product (.power first)) (.inl sign) (.power last))
  · refine readsAs_binary_of (c := '/') (fun _ => rfl) first last fun sign first last => ?_
    rw [nesting_binary_of_ne left right (by decide)]
    exact .sum (.multiply (.product (.power first)) (.inr sign) (.power last))
  · refine readsAs_binary_of (c := '^') (fun _ => rfl) first last fun sign first last => ?_
    exact .sum (.product (.raise first sign (.power last)))

theorem readsAs_range {first last : Expr} (lower : ReadsAs first) (upper : ReadsAs last) :
    ReadsAs (.range first last) := by
  refine .of_primary rfl fun rest _ => ?_
  rw [render_range]
  refine .token '\x7b' [] rfl fun lbrace opening _ => ?_
  refine (lower.whole _ rfl).append fun tokens₁ lower => ?_
  refine .token ',' [] rfl fun comma between _ => .blank ?_
  refine (upper.whole _ rfl).append fun tokens₂ upper => ?_
  refine .token '\x7d' [] rfl fun rbrace closing _ => ?_
  exact .nil (.range opening lower between upper closing)

theorem readsAs_map {source body : Expr} {param : Text} (argument : ReadsAs source)
    (isName : IsName param) (lambda : ReadsAs body) : ReadsAs (.map source param body) := by
  refine .of_primary rfl fun rest _ => ?_
  rw [render_map]
  refine .token 'm' ['a', 'p'] rfl fun map keyword _ => ?_
  refine .token '(' [] rfl fun lpar opening _ => ?_
  refine (argument.whole _ rfl).append fun tokens₁ argument => ?_
  refine .token ',' [] rfl fun comma between _ => .blank ?_
  refine .name isName rfl fun param name text => .blank ?_
  refine .token '-' ['>'] rfl fun arrow points _ => .blank ?_
  refine (lambda.whole _ rfl).append fun tokens₂ lambda => ?_
  refine .token ')' [] rfl fun rpar closing _ => ?_
  exact .nil (text ▸ .map keyword opening argument between name points lambda closing)

theorem readsAs_reduce {source neutral body : Expr} {param₁ param₂ : Text}
    (argument : ReadsAs source) (start : ReadsAs neutral) (isName₁ : IsName param₁)
    (isName₂ : IsName param₂) (lambda : ReadsAs body) :
    ReadsAs (.reduce source neutral param₁ param₂ body) := by
  refine .of_primary rfl fun rest _ => ?_
  rw [render_reduce]
  refine .token 'r' ['e', 'd', 'u', 'c', 'e'] rfl fun reduce keyword _ => ?_
  refine .token '(' [] rfl fun lpar opening _ => ?_
  refine (argument.whole _ rfl).append fun tokens₁ argument => ?_
  refine .token ',' [] rfl fun comma₁ between₁ _ => .blank ?_
  refine (start.whole _ rfl).append fun tokens₂ start => ?_
  refine .token ',' [] rfl fun comma₂ between₂ _ => .blank ?_
  refine .name isName₁ rfl fun param₁ name₁ text₁ => .blank ?_
  refine .name isName₂ rfl fun param₂ name₂ text₂ => .blank ?_
  refine .token '-' ['>'] rfl fun arrow points _ => .blank ?_
  refine (lambda.whole _ rfl).append fun tokens₃ lambda => ?_
  refine .token ')' [] rfl fun rpar closing _ => ?_
  exact .nil (text₁ ▸ text₂ ▸
    .reduce keyword opening argument between₁ start between₂ name₁ name₂ points lambda closing)

/-- The text of a writable expression denotes it, by induction on how it is made up. -/
theorem readsAs_of_writable {e : Expr} (h : Writable e) : ReadsAs e := by
  induction h with
  | number scanned read => exact readsAs_number scanned read
  | ident isName => exact readsAs_ident isName
  | negate writable inner => exact readsAs_negate writable inner
  | binary _ sign _ first last => exact readsAs_binary first sign last
  | range _ _ lower upper => exact readsAs_range lower upper
  | map _ isName _ argument lambda => exact readsAs_map argument isName lambda
  | reduce _ _ isName₁ isName₂ _ argument start lambda =>
    exact readsAs_reduce argument start isName₁ isName₂ lambda

/-! ## Parsing it -/

/-- The tokens of a statement that prints an expression. -/
theorem scan_out_render {e : Expr} (h : Writable e) :
    ∃ (out : Token) (tokens : List Token), Token.scan ("out " ++ e.render) = out :: tokens ∧
      out.kind = .out ∧ Derives .sum e.levels tokens e := by
  have reads : Scans ("out " ++ e.render) [] fun tokens => ∃ (out : Token) (others : List Token),
      tokens = out :: others ∧ out.kind = .out ∧ Derives .sum e.levels others e := by
    refine .token 'o' ['u', 't'] rfl fun out keyword _ => .blank ?_
    refine ((readsAs_of_writable h).whole [] rfl).mono fun tokens derives => ?_
    exact ⟨out, tokens, rfl, keyword, derives⟩
  obtain ⟨_, scanned, out, tokens, rfl, keyword, derives⟩ := reads 0
  refine ⟨out, tokens, ?_, keyword, derives⟩
  rw [List.append_nil] at scanned
  rw [Token.scan, scanned, Token.scanFrom, List.append_nil]

/-- The text of an expression parses to the expression if it opens no more levels than allowed, and
else it is nested too deeply. -/
theorem ofText_out_render {e : Expr} (h : Writable e) :
    (e.levels ≤ maxLevels → Program.ofText ("out " ++ e.render) = .ok [.out e]) ∧
      (maxLevels < e.levels → ∃ failure, Program.ofText ("out " ++ e.render) = .error failure ∧
        failure.cause.message = "Expression nested too deeply (more than 64 levels)") := by
  obtain ⟨out, tokens, scanned, keyword, derives⟩ := scan_out_render h
  -- The tokens derive the expression at its height, whether that is allowed or not.
  rw [Program.ofText, scanned]
  constructor
  · intro bound
    have program : Program.Derives (out :: tokens ++ []) [.out e] :=
      .cons (.out keyword bound derives) .nil
    rw [List.append_nil] at program
    exact Parse.statements_of_derives program (Nat.le_refl _)
  · intro bound
    have complete := Parse.complete_of_derives derives
    obtain ⟨rest, tooDeep⟩ := (complete.readsBack maxLevels [] nofun).2 bound
    rw [List.append_nil] at tooDeep
    refine ⟨⟨.tooDeep, rest⟩, ?_, rfl⟩
    rw [Program.parse, List.length_cons, Parse.statements, Parse.statement, keyword]
    dsimp only
    rw [tooDeep]
    rfl

/-- A negative number behind a minus sign is read back, and a name that is negated once too often is
nested too deeply. -/
theorem ofText_out_render_of_negations :
    Program.ofText ("out " ++ (binary (ident "x") "-" (number (-1))).render) =
        .ok [.out (binary (ident "x") "-" (number (-1)))] ∧
      ∃ failure,
        Program.ofText ("out " ++ (Nat.repeat negate 65 (ident "x")).render) = .error failure ∧
        failure.cause.message = "Expression nested too deeply (more than 64 levels)" := by
  have name : Writable (ident "x") := .ident (.word rfl nofun (by decide))
  have negations (n : Nat) : Writable (Nat.repeat negate n (ident "x")) := by
    induction n with
    | zero => exact name
    | succ n ih => exact .negate ih
  have difference : Writable (binary (ident "x") "-" (number (-1))) :=
    .binary name (by decide) (.number rfl rfl)
  exact ⟨(ofText_out_render difference).1 (by decide),
    (ofText_out_render (negations 65)).2 (by decide)⟩

end Expr

end RangeCalc
