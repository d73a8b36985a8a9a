import RangeCalc.Proofs.Program.Completeness
import RangeCalc.Proofs.Token.Concatenation
import RangeCalc.Proofs.Token.WellFormed

/-!
# Programs put together

Statements are not separated by anything, so two programs can be written one after the other, as long
as there is a gap between their tokens. The grammar looks at the kinds and the texts of tokens, not
at where they stand, and it has no use for a stray character.

* `Program.Derives.shift`, `Program.Derives.append`: tokens that are moved, and two programs;
* `Program.Derives.ne_error`: the tokens of a program are no stray characters;
* `Program.ofText_eq_ok_iff`: a text parses to what the grammar derives from its tokens;
* `Program.ofText_append`: the text of two programs parses to the statements of both.
-/

namespace RangeCalc

/-! ## Tokens that are moved -/

/-- A phrase is the same wherever it stands. -/
theorem Expr.Derives.shift {phrase : Phrase} {height : Nat} {tokens : List Token} {e : Expr}
    (h : Expr.Derives phrase height tokens e) (count : Nat) :
    Expr.Derives phrase height (tokens.map (Token.shift count)) e := by
  induction h with
  | sum _ ih => exact .sum ih
  | @add _ _ _ _ _ _ op _ sign _ ih₁ ih₂ =>
    rw [List.map_append, List.map_cons]
    exact @Expr.Derives.add _ _ _ _ _ _ (op.shift count) ih₁ sign ih₂
  | product _ ih => exact .product ih
  | @multiply _ _ _ _ _ _ op _ sign _ ih₁ ih₂ =>
    rw [List.map_append, List.map_cons]
    exact @Expr.Derives.multiply _ _ _ _ _ _ (op.shift count) ih₁ sign ih₂
  | power _ ih => exact .power ih
  | @raise _ _ _ _ _ _ op _ sign _ ih₁ ih₂ =>
    rw [List.map_append, List.map_cons]
    exact @Expr.Derives.raise _ _ _ _ _ _ (op.shift count) ih₁ sign ih₂
  | @number token _ kind value => exact @Expr.Derives.number (token.shift count) _ kind value
  | @ident name kind => exact @Expr.Derives.ident (name.shift count) kind
  | @negateIdent minus name sign kind =>
    exact @Expr.Derives.negateIdent (minus.shift count) (name.shift count) sign kind
  | @negateNumber minus token _ sign kind value =>
    exact @Expr.Derives.negateNumber (minus.shift count) (token.shift count) _ sign kind value
  | @negateGroup minus lpar rpar _ _ _ sign opening _ closing ih =>
    simp only [List.map_cons, List.map_append]
    exact @Expr.Derives.negateGroup (minus.shift count) (lpar.shift count) (rpar.shift count) _ _ _
      sign opening ih closing
  | @group lpar rpar _ _ _ opening _ closing ih =>
    simp only [List.map_cons, List.map_append]
    exact @Expr.Derives.group (lpar.shift count) (rpar.shift count) _ _ _ opening ih closing
  | @range lbrace comma rbrace _ _ _ _ _ _ opening _ between _ closing ih₁ ih₂ =>
    simp only [List.map_cons, List.map_append]
    exact @Expr.Derives.range (lbrace.shift count) (comma.shift count) (rbrace.shift count) _ _ _ _
      _ _ opening ih₁ between ih₂ closing
  | @map map lpar comma param arrow rpar _ _ _ _ _ _ keyword opening _ between name points _ closing
      ih₁ ih₂ =>
    simp only [List.map_cons, List.map_append]
    exact @Expr.Derives.map (map.shift count) (lpar.shift count) (comma.shift count)
      (param.shift count) (arrow.shift count) (rpar.shift count) _ _ _ _ _ _ keyword opening ih₁
      between name points ih₂ closing
  | @reduce reduce lpar comma₁ comma₂ param₁ param₂ arrow rpar _ _ _ _ _ _ _ _ _ keyword opening _
      between₁ _ between₂ name₁ name₂ points _ closing ih₁ ih₂ ih₃ =>
    simp only [List.map_cons, List.map_append]
    exact @Expr.Derives.reduce (reduce.shift count) (lpar.shift count) (comma₁.shift count)
      (comma₂.shift count) (param₁.shift count) (param₂.shift count) (arrow.shift count)
      (rpar.shift count) _ _ _ _ _ _ _ _ _ keyword opening ih₁ between₁ ih₂ between₂ name₁ name₂
      points ih₃ closing

/-- A statement is the same wherever it stands. -/
theorem Stmt.Derives.shift {tokens : List Token} {stmt : Stmt} (h : Stmt.Derives tokens stmt)
    (count : Nat) : Stmt.Derives (tokens.map (Token.shift count)) stmt := by
  cases h with
  | @var var name assign _ _ _ keyword kind sign bound expr =>
    exact @Stmt.Derives.var (var.shift count) (name.shift count) (assign.shift count) _ _ _ keyword
      kind sign bound (expr.shift count)
  | @out out _ _ _ keyword bound expr =>
    exact @Stmt.Derives.out (out.shift count) _ _ _ keyword bound (expr.shift count)
  | @print print string text keyword kind quoted =>
    exact @Stmt.Derives.print (print.shift count) (string.shift count) text keyword kind quoted

namespace Program.Derives

variable {tokens tokens' : List Token} {program program' : Program}

/-- A program is the same wherever it stands. -/
theorem shift (h : Derives tokens program) (count : Nat) :
    Derives (tokens.map (Token.shift count)) program := by
  induction h with
  | nil => exact .nil
  | cons first _ ih =>
    rw [List.map_append]
    exact .cons (first.shift count) ih

/-- The statements of one program and then those of another. -/
theorem append (h : Derives tokens program) (h' : Derives tokens' program') :
    Derives (tokens ++ tokens') (program ++ program') := by
  induction h with
  | nil => exact h'
  | cons first _ ih =>
    rw [List.append_assoc]
    exact .cons first ih

end Program.Derives

/-! ## Stray characters -/

/-- A phrase has no stray characters. -/
theorem Expr.Derives.ne_error {phrase : Phrase} {height : Nat} {tokens : List Token} {e : Expr}
    (h : Expr.Derives phrase height tokens e) : ∀ token ∈ tokens, token.kind ≠ .error := by
  have clean {token : Token} {kind : Token.Kind} (h : token.kind = kind) (ne : kind ≠ .error) :
      token.kind ≠ .error := h ▸ ne
  have nil := List.forall_mem_nil fun token : Token => token.kind ≠ .error
  induction h with
  | sum _ ih => exact ih
  | add _ sign _ ih₁ ih₂ =>
    have op := sign.elim (clean · nofun) (clean · nofun)
    exact List.forall_mem_append.2 ⟨ih₁, List.forall_mem_cons.2 ⟨op, ih₂⟩⟩
  | product _ ih => exact ih
  | multiply _ sign _ ih₁ ih₂ =>
    have op := sign.elim (clean · nofun) (clean · nofun)
    exact List.forall_mem_append.2 ⟨ih₁, List.forall_mem_cons.2 ⟨op, ih₂⟩⟩
  | power _ ih => exact ih
  | raise _ sign _ ih₁ ih₂ =>
    exact List.forall_mem_append.2 ⟨ih₁, List.forall_mem_cons.2 ⟨clean sign nofun, ih₂⟩⟩
  | number kind _ => exact List.forall_mem_cons.2 ⟨clean kind nofun, nil⟩
  | ident kind => exact List.forall_mem_cons.2 ⟨clean kind nofun, nil⟩
  | negateIdent sign kind =>
    simp only [List.forall_mem_cons]
    exact ⟨clean sign nofun, clean kind nofun, nil⟩
  | negateNumber sign kind _ =>
    simp only [List.forall_mem_cons]
    exact ⟨clean sign nofun, clean kind nofun, nil⟩
  | negateGroup sign opening _ closing ih =>
    simp only [List.forall_mem_cons, List.forall_mem_append]
    exact ⟨clean sign nofun, clean opening nofun, ih, clean closing nofun, nil⟩
  | group opening _ closing ih =>
    simp only [List.forall_mem_cons, List.forall_mem_append]
    exact ⟨clean opening nofun, ih, clean closing nofun, nil⟩
  | range opening _ between _ closing ih₁ ih₂ =>
    simp only [List.forall_mem_cons, List.forall_mem_append]
    exact ⟨clean opening nofun, ih₁, clean between nofun, ih₂, clean closing nofun, nil⟩
  | map keyword opening _ between name points _ closing ih₁ ih₂ =>
    simp only [List.forall_mem_cons, List.forall_mem_append]
    exact ⟨clean keyword nofun, clean opening nofun, ih₁, clean between nofun, clean name nofun,
      clean points nofun, ih₂, clean closing nofun, nil⟩
  | reduce keyword opening _ between₁ _ between₂ name₁ name₂ points _ closing ih₁ ih₂ ih₃ =>
    simp only [List.forall_mem_cons, List.forall_mem_append]
    exact ⟨clean keyword nofun, clean opening nofun, ih₁, clean between₁ nofun, ih₂,
      clean between₂ nofun, clean name₁ nofun, clean name₂ nofun, clean points nofun, ih₃,
      clean closing nofun, nil⟩

/-- A program has no stray characters. -/
theorem Program.Derives.ne_error {tokens : List Token} {program : Program}
    (h : Program.Derives tokens program) : ∀ token ∈ tokens, token.kind ≠ .error := by
  induction h with
  | nil => exact List.forall_mem_nil _
  | cons first _ ih =>
    refine List.forall_mem_append.2 ⟨?_, ih⟩
    cases first with
    | var keyword kind sign _ expr =>
      simp only [List.forall_mem_cons, keyword, kind, sign]
      exact ⟨nofun, nofun, nofun, expr.ne_error⟩
    | out keyword _ expr =>
      simp only [List.forall_mem_cons, keyword]
      exact ⟨nofun, expr.ne_error⟩
    | print keyword kind _ =>
      simp only [List.forall_mem_cons, keyword, kind]
      exact ⟨nofun, nofun, List.forall_mem_nil _⟩

/-! ## Texts -/

namespace Program

/-- A text parses to the program that the grammar derives from its tokens. -/
theorem ofText_eq_ok_iff {text : Text} {program : Program} :
    ofText text = .ok program ↔ Derives (Token.scan text) program :=
  ⟨Parse.derives_of_statements (Nat.le_refl _) fun _ => Token.wellFormed_of_mem_scanFrom,
    fun h => Parse.statements_of_derives h (Nat.le_refl _)⟩

/-- Two programs with a gap between them make up one. -/
theorem ofText_append {text text' gap : Text} {program program' : Program}
    (h : ofText text = .ok program) (h' : ofText text' = .ok program') (some_gap : gap ≠ [])
    (hgap : ∀ c ∈ gap, Token.isGap c = true) :
    ofText (text ++ gap ++ text') = .ok (program ++ program') := by
  rw [ofText_eq_ok_iff] at h h' ⊢
  rw [Token.scan_append h.ne_error some_gap hgap]
  exact h.append (h'.shift _)

end Program

end RangeCalc
