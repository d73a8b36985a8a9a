import RangeCalc.Proofs.Program.Grammar
import RangeCalc.Proofs.Result

/-!
# Soundness of parsing

What a reader makes of tokens is *justified* by the grammar: if it succeeds, the tokens it consumed
make up the phrase it was after, and if it fails, that is a syntax error. Both need what scanning
gives, that the text of a number token is a number and that of a string token is quoted.

Readers are chains of smaller ones, and so are the proofs: `Justified.bind` and `Justified.expect`
take a chain apart from the front, and at its end all parts of the phrase are at hand.

* `Parse.justified_sum`: an expression, by induction on the levels that may still be opened;
* `Parse.derives_of_statements`, `Parse.isSyntax_of_statements`: a program.
-/

namespace RangeCalc

/-- The text of a number token can be read, and that of a string token is quoted. -/
structure Token.WellFormed (token : Token) : Prop where
  number : token.kind = .number → ∃ value, Number.read? token.text = some value
  string : token.kind = .string → ∃ text : Text, token.text = '"' :: (text ++ ['"'])

/-- Whether the tokens are to blame, and not the text of a number. -/
def ParseError.IsSyntax : ParseError → Prop
  | .unreadable _ => False
  | _ => True

namespace Parse

variable {α β : Type}

/-- A reader that is given `tokens` comes to a justified result: it consumes tokens that make up
what it gives, or it fails with a syntax error. -/
def Justified (Q : List Token → α → Prop) (tokens : List Token) :
    Except ParseFailure (α × List Token) → Prop
  | .ok (a, rest) =>
    (∀ token ∈ tokens, token.WellFormed) → ∃ front, tokens = front ++ rest ∧ Q front a
  | .error failure => (∀ token ∈ tokens, token.WellFormed) → failure.cause.IsSyntax

namespace Justified

variable {P Q : List Token → α → Prop} {tokens : List Token}

theorem mono {result : Except ParseFailure (α × List Token)} (h : Justified P tokens result)
    (le : ∀ front a, P front a → Q front a) : Justified Q tokens result := by
  cases result with
  | error failure => exact h
  | ok read =>
    intro wellFormed
    obtain ⟨front, split, hP⟩ := h wellFormed
    exact ⟨front, split, le front _ hP⟩

/-- A reader that consumes nothing. -/
theorem pure {a : α} (h : Q [] a) : Justified Q tokens (.ok (a, tokens)) :=
  fun _ => ⟨[], rfl, h⟩

/-- A reader that fails with a syntax error. -/
theorem fail {failure : ParseFailure} (h : failure.cause.IsSyntax) :
    Justified Q tokens (.error failure) :=
  fun _ => h

/-- A token that is consumed before the reader. -/
theorem cons {token : Token} {result : Except ParseFailure (α × List Token)}
    (h : token.WellFormed → Justified (fun front => Q (token :: front)) tokens result) :
    Justified Q (token :: tokens) result := by
  cases result with
  | error failure =>
    intro wellFormed
    obtain ⟨first, others⟩ := List.forall_mem_cons.1 wellFormed
    exact h first others
  | ok read =>
    intro wellFormed
    obtain ⟨first, others⟩ := List.forall_mem_cons.1 wellFormed
    obtain ⟨front, rfl, hQ⟩ := h first others
    exact ⟨token :: front, rfl, hQ⟩

/-- What one reader consumes, and then what the next one does. -/
theorem bind {R : List Token → β → Prop} {first : Except ParseFailure (α × List Token)}
    {next : α × List Token → Except ParseFailure (β × List Token)} (h : Justified P tokens first)
    (hnext : ∀ front a rest, P front a →
      Justified (fun front' => R (front ++ front')) rest (next (a, rest))) :
    Justified R tokens (first >>= next) := by
  cases first with
  | error failure => exact h
  | ok read =>
    obtain ⟨a, rest⟩ := read
    show Justified R tokens (next (a, rest))
    -- The second reader is given tokens that are well formed because all of them are.
    cases second : next (a, rest) with
    | error failure =>
      intro wellFormed
      obtain ⟨front, rfl, hP⟩ := h wellFormed
      have justified := hnext front a rest hP
      rw [second] at justified
      exact justified fun token mem => wellFormed token (List.mem_append_right _ mem)
    | ok read =>
      intro wellFormed
      obtain ⟨front, rfl, hP⟩ := h wellFormed
      have justified := hnext front a rest hP
      rw [second] at justified
      obtain ⟨front', rfl, hR⟩ :=
        justified fun token mem => wellFormed token (List.mem_append_right _ mem)
      exact ⟨front ++ front', (List.append_assoc _ _ _).symm, hR⟩

/-- A token of the expected kind, and then what the next reader consumes. -/
theorem expect {kind : Token.Kind} {next : Text × List Token → Except ParseFailure (α × List Token)}
    (h : ∀ token rest, token.kind = kind → token.WellFormed →
      Justified (fun front => Q (token :: front)) rest (next (token.text, rest))) :
    Justified Q tokens (Parse.expect kind tokens >>= next) := by
  cases tokens with
  | nil => exact fail trivial
  | cons token rest =>
    rw [Parse.expect]
    by_cases found : token.kind = kind
    · rw [if_pos found]
      exact cons (h token rest found)
    · rw [if_neg found]
      exact fail trivial

end Justified

/-- The tokens make up a phrase that opens no more levels than there is room for. -/
def Fits (phrase : Phrase) (room : Nat) (tokens : List Token) (e : Expr) : Prop :=
  ∃ height ≤ room, Expr.Derives phrase height tokens e

/-- A chain that goes on as long as an operator follows. -/
theorem justified_chainFrom {operand : Reader Expr} {isOperator : Token.Kind → Bool}
    {Whole Part : List Token → Expr → Prop}
    (hoperand : ∀ tokens, Justified Part tokens (operand tokens))
    (extend : ∀ {front more : List Token} {left right : Expr} {op : Token}, Whole front left →
      isOperator op.kind = true → Part more right →
        Whole (front ++ op :: more) (.binary left op.text right))
    (fuel : Nat) {front : List Token} {left : Expr} (h : Whole front left) (tokens : List Token) :
    Justified (fun more => Whole (front ++ more)) tokens
      (chainFrom operand isOperator fuel left tokens) := by
  have ends : Justified (fun more => Whole (front ++ more)) tokens (.ok (left, tokens)) := by
    refine .pure ?_
    rwa [List.append_nil]
  -- By induction on the fuel: `front` is what the chain has consumed, and `left` what that denotes.
  induction fuel generalizing front left tokens with
  | zero => exact ends
  | succ fuel ih =>
    cases tokens with
    | nil => exact ends
    | cons op tokens =>
      rw [chainFrom]
      by_cases isOp : isOperator op.kind = true
      · rw [if_pos isOp]
        refine .cons fun _ => (hoperand tokens).bind fun more right tokens hright => ?_
        have extended := extend h isOp hright
        refine (ih extended tokens (.pure ?_)).mono fun last e whole => ?_
        · rwa [List.append_nil]
        · rwa [List.append_assoc, List.cons_append] at whole
      · rw [if_neg isOp]
        exact ends

/-- A chain. -/
theorem justified_chain {operand : Reader Expr} {isOperator : Token.Kind → Bool}
    {Whole Part : List Token → Expr → Prop}
    (hoperand : ∀ tokens, Justified Part tokens (operand tokens))
    (single : ∀ {front : List Token} {e : Expr}, Part front e → Whole front e)
    (extend : ∀ {front more : List Token} {left right : Expr} {op : Token}, Whole front left →
      isOperator op.kind = true → Part more right →
        Whole (front ++ op :: more) (.binary left op.text right)) (tokens : List Token) :
    Justified Whole tokens (chain operand isOperator tokens) := by
  refine (hoperand tokens).bind fun front left rest hleft => ?_
  exact justified_chainFrom hoperand extend rest.length (single hleft) rest

/-! ## Expressions -/

/-- The tokens are a sum in parentheses. -/
def Grouped (room : Nat) (tokens : List Token) (e : Expr) : Prop :=
  ∃ (lpar rpar : Token) (inner : List Token), lpar.kind = .lpar ∧ rpar.kind = .rpar ∧
    tokens = lpar :: (inner ++ [rpar]) ∧ Fits .sum room inner e

section Primary

variable {sum : Reader Expr} {room : Nat}
  (hsum : ∀ tokens, Justified (Fits .sum room) tokens (sum tokens)) (tokens : List Token)
include hsum

theorem justified_group : Justified (Grouped room) tokens (group sum tokens) := by
  refine .expect fun lpar tokens opening _ => ?_
  refine (hsum tokens).bind fun inner e tokens fits => ?_
  refine .expect fun rpar tokens closing _ => ?_
  exact .pure ⟨lpar, rpar, inner, opening, closing, rfl, fits⟩

theorem justified_rangeLiteral :
    Justified (Fits .primary room) tokens (rangeLiteral sum tokens) := by
  refine .expect fun lbrace tokens opening _ => ?_
  refine (hsum tokens).bind fun _ first tokens ⟨height₁, le₁, lower⟩ => ?_
  refine .expect fun comma tokens between _ => ?_
  refine (hsum tokens).bind fun _ last tokens ⟨height₂, le₂, upper⟩ => ?_
  refine .expect fun rbrace tokens closing _ => ?_
  exact .pure ⟨_, Nat.max_le.2 ⟨le₁, le₂⟩, .range opening lower between upper closing⟩

theorem justified_mapping : Justified (Fits .primary room) tokens (mapping sum tokens) := by
  refine .expect fun map tokens keyword _ => ?_
  refine .expect fun lpar tokens opening _ => ?_
  refine (hsum tokens).bind fun _ source tokens ⟨height₁, le₁, argument⟩ => ?_
  refine .expect fun comma tokens between _ => ?_
  refine .expect fun param tokens name _ => ?_
  refine .expect fun arrow tokens points _ => ?_
  refine (hsum tokens).bind fun _ body tokens ⟨height₂, le₂, lambda⟩ => ?_
  refine .expect fun rpar tokens closing _ => ?_
  exact .pure ⟨_, Nat.max_le.2 ⟨le₁, le₂⟩,
    .map keyword opening argument between name points lambda closing⟩

theorem justified_reduction : Justified (Fits .primary room) tokens (reduction sum tokens) := by
  refine .expect fun reduce tokens keyword _ => ?_
  refine .expect fun lpar tokens opening _ => ?_
  refine (hsum tokens).bind fun _ source tokens ⟨height₁, le₁, argument⟩ => ?_
  refine .expect fun comma₁ tokens between₁ _ => ?_
  refine (hsum tokens).bind fun _ neutral tokens ⟨height₂, le₂, start⟩ => ?_
  refine .expect fun comma₂ tokens between₂ _ => ?_
  refine .expect fun param₁ tokens name₁ _ => ?_
  refine .expect fun param₂ tokens name₂ _ => ?_
  refine .expect fun arrow tokens points _ => ?_
  refine (hsum tokens).bind fun _ body tokens ⟨height₃, le₃, lambda⟩ => ?_
  refine .expect fun rpar tokens closing _ => ?_
  exact .pure ⟨_, Nat.max_le.2 ⟨le₁, Nat.max_le.2 ⟨le₂, le₃⟩⟩,
    .reduce keyword opening argument between₁ start between₂ name₁ name₂ points lambda closing⟩

/-- What follows a minus sign. -/
theorem justified_negated {minus : Token} (sign : minus.kind = .minus) :
    Justified (fun front => Fits .primary room (minus :: front)) tokens (negated sum tokens) := by
  rw [negated.eq_def]
  -- A minus sign is followed by a name, a group or a number.
  split
  · exact .cons fun _ => .pure ⟨0, Nat.zero_le _, .negateIdent sign rfl⟩
  · refine (justified_group hsum _).bind fun front e rest grouped => ?_
    obtain ⟨lpar, rpar, inner, opening, closing, rfl, height, le, h⟩ := grouped
    refine .pure ⟨height, le, ?_⟩
    rw [List.append_nil]
    exact .negateGroup sign opening h closing
  · rename_i text pos rest
    refine .cons fun wellFormed => ?_
    obtain ⟨value, read⟩ := wellFormed.number rfl
    rw [readNumber, show Number.read? text = some value from read]
    exact .pure ⟨0, Nat.zero_le _, .negateNumber sign rfl read⟩
  · exact .fail trivial

theorem justified_primary : Justified (Fits .primary room) tokens (primary sum tokens) := by
  cases tokens with
  | nil => exact .fail trivial
  | cons token rest =>
    rw [primary]
    split
    · rename_i sign
      exact .cons fun _ => justified_negated hsum rest sign
    · rename_i kind
      refine .cons fun wellFormed => ?_
      obtain ⟨value, read⟩ := wellFormed.number kind
      rw [readNumber, read]
      exact .pure ⟨0, Nat.zero_le _, .number kind read⟩
    · rename_i kind
      exact .cons fun _ => .pure ⟨0, Nat.zero_le _, .ident kind⟩
    · refine (justified_group hsum _).mono ?_
      rintro _ e ⟨lpar, rpar, inner, opening, closing, rfl, height, le, h⟩
      exact ⟨height, le, .group opening h closing⟩
    · exact justified_rangeLiteral hsum _
    · exact justified_mapping hsum _
    · exact justified_reduction hsum _
    · exact .fail trivial
    · exact .fail trivial

end Primary

theorem justified_tooDeep {Q : List Token → Expr → Prop} {tokens : List Token} :
    Justified Q tokens (stop .tooDeep tokens) :=
  .fail trivial

theorem justified_powerOf {base exponent : Reader Expr} {room : Nat}
    (hbase : ∀ tokens, Justified (Fits .primary room) tokens (base tokens))
    (hexponent : ∀ tokens, Justified (fun front e => ∃ height < room,
      Expr.Derives .power height front e) tokens (exponent tokens)) (tokens : List Token) :
    Justified (Fits .power room) tokens (powerOf base exponent tokens) := by
  refine (hbase tokens).bind fun front left rest ⟨height₁, le₁, h₁⟩ => ?_
  dsimp only
  split
  · refine .cons fun _ => (hexponent _).bind fun more right rest ⟨height₂, lt₂, h₂⟩ => ?_
    refine .pure ⟨_, Nat.max_le.2 ⟨le₁, lt₂⟩, ?_⟩
    rw [List.append_nil]
    exact .raise h₁ rfl h₂
  · refine .pure ⟨height₁, le₁, ?_⟩
    rw [List.append_nil]
    exact .power h₁

theorem justified_productOf {power : Reader Expr} {room : Nat}
    (hpower : ∀ tokens, Justified (Fits .power room) tokens (power tokens)) (tokens : List Token) :
    Justified (Fits .product room) tokens (chain power isProductOperator tokens) := by
  refine justified_chain hpower ?_ ?_ tokens
  · rintro front e ⟨height, le, h⟩
    exact ⟨height, le, .product h⟩
  · rintro front more left right op ⟨height₁, le₁, h₁⟩ isOp ⟨height₂, le₂, h₂⟩
    refine ⟨_, Nat.max_le.2 ⟨le₁, le₂⟩, .multiply h₁ ?_ h₂⟩
    simpa [isProductOperator] using isOp

/-- A sum opens a level, and its powers are read with what is left. -/
theorem justified_sumOf {power : Reader Expr} {room : Nat}
    (hpower : ∀ tokens, Justified (Fits .power room) tokens (power tokens)) (tokens : List Token) :
    Justified (Fits .sum (room + 1)) tokens (sumOf power tokens) := by
  refine justified_chain (justified_productOf hpower) ?_ ?_ tokens
  · rintro front e ⟨height, le, h⟩
    exact ⟨height + 1, Nat.succ_le_succ le, .sum h⟩
  · rintro front more left right op ⟨height₁, le₁, h₁⟩ isOp ⟨height₂, le₂, h₂⟩
    refine ⟨_, Nat.max_le.2 ⟨le₁, Nat.succ_le_succ le₂⟩, .add h₁ ?_ h₂⟩
    simpa [isSumOperator] using isOp

/-- A power, by induction on the levels that may still be opened. -/
theorem justified_power (room : Nat) (tokens : List Token) :
    Justified (Fits .power room) tokens (power room tokens) := by
  -- Sums inside and the exponent both have one level less. Without a level, neither can be read.
  induction room generalizing tokens with
  | zero =>
    exact justified_powerOf (justified_primary fun _ => justified_tooDeep)
      (fun _ => justified_tooDeep) tokens
  | succ room ih =>
    refine justified_powerOf (justified_primary (justified_sumOf ih)) (fun tokens => ?_) tokens
    refine (ih tokens).mono ?_
    rintro front e ⟨height, le, h⟩
    exact ⟨height, Nat.lt_succ_of_le le, h⟩

theorem justified_sum (room : Nat) (tokens : List Token) :
    Justified (Fits .sum room) tokens (sum room tokens) := by
  cases room with
  | zero => exact justified_tooDeep
  | succ room => exact justified_sumOf (justified_power room) tokens

/-! ## Statements -/

theorem unquoted_quoted (text : Text) : unquoted ('"' :: (text ++ ['"'])) = text := by
  simp [unquoted]

theorem justified_statement (tokens : List Token) :
    Justified Stmt.Derives tokens (statement tokens) := by
  cases tokens with
  | nil => exact .fail trivial
  | cons token rest =>
    rw [statement]
    split
    · rename_i keyword
      refine .cons fun _ => .expect fun name rest kind _ => ?_
      refine .expect fun assign rest sign _ => ?_
      refine (justified_sum maxLevels rest).bind fun front value rest ⟨height, le, h⟩ => ?_
      refine .pure ?_
      rw [List.append_nil]
      exact .var keyword kind sign le h
    · rename_i keyword
      refine .cons fun _ => ?_
      refine (justified_sum maxLevels rest).bind fun front value rest ⟨height, le, h⟩ => ?_
      refine .pure ?_
      rw [List.append_nil]
      exact .out keyword le h
    · rename_i keyword
      refine .cons fun _ => .expect fun string rest kind wellFormed => ?_
      obtain ⟨text, quoted⟩ := wellFormed.string kind
      refine .pure ?_
      rw [quoted, unquoted_quoted]
      exact .print keyword kind quoted
    · exact .fail trivial

/-- Statements up to the end of the tokens, if there is fuel for all of them. -/
theorem derives_of_statements {fuel : Nat} {tokens : List Token} {program : Program}
    (le : tokens.length ≤ fuel) (wellFormed : ∀ token ∈ tokens, token.WellFormed)
    (h : statements fuel tokens = .ok program) : Program.Derives tokens program := by
  induction fuel generalizing tokens program with
  | zero =>
    obtain rfl := List.length_eq_zero_iff.1 (Nat.le_zero.1 le)
    cases h
    exact .nil
  | succ fuel ih =>
    cases tokens with
    | nil =>
      cases h
      exact .nil
    | cons token tokens =>
      obtain ⟨⟨stmt, rest⟩, first, h⟩ := Result.bind_eq_ok.1 h
      obtain ⟨others, hothers, ⟨⟩⟩ := Result.bind_eq_ok.1 h
      have justified := justified_statement (token :: tokens)
      rw [first] at justified
      obtain ⟨front, split, derives⟩ := justified wellFormed
      -- A statement consumes a token at least, so the fuel lasts for the tokens that are left.
      have shorter := congrArg List.length split
      rw [List.length_append] at shorter
      rw [split]
      refine .cons derives (ih ?_ ?_ hothers)
      · have := derives.length_pos
        omega
      · intro token mem
        exact wellFormed token (split ▸ List.mem_append_right _ mem)

/-- Statements that cannot be read are a syntax error. -/
theorem isSyntax_of_statements {fuel : Nat} {tokens : List Token} {failure : ParseFailure}
    (wellFormed : ∀ token ∈ tokens, token.WellFormed)
    (h : statements fuel tokens = .error failure) : failure.cause.IsSyntax := by
  induction fuel generalizing tokens with
  | zero => cases h
  | succ fuel ih =>
    cases tokens with
    | nil => cases h
    | cons token tokens =>
      have justified := justified_statement (token :: tokens)
      rcases Result.bind_eq_error.1 h with first | ⟨⟨stmt, rest⟩, first, h⟩
      · rw [first] at justified
        exact justified wellFormed
      · rw [first] at justified
        obtain ⟨front, split, -⟩ := justified wellFormed
        rcases Result.bind_eq_error.1 h with others | ⟨_, _, ⟨⟩⟩
        refine ih (fun token mem => ?_) others
        exact wellFormed token (split ▸ List.mem_append_right _ mem)

end Parse

end RangeCalc
