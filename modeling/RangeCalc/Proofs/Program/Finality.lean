import RangeCalc.Program.Parse
import RangeCalc.Proofs.Result

/-!
# Syntax errors are final

A program is parsed with one token of lookahead and never goes back. So what a reader makes of
tokens *persists* when later tokens are put behind them, as long as it has not come to their end:
what it has read is read again, and what it has found wrong is found wrong again, in the same words.

At the end it depends. A value may go on, as a sum does if an operator comes next, and an error that
says that the tokens have ended may go away. A minus sign with nothing behind it is reported like a
minus sign with the wrong token behind it, so that error may go away as well.

* `Persists`: the result of a reader on some tokens, and on these and later ones;
* `Persists.bind`, `Persists.expect`: a chain of readers, taken apart from the front;
* `Parse.persistent_sum`: an expression, by induction on the levels that may still be opened;
* `Program.parse_append_of_error`: a program with a syntax error.
-/

namespace RangeCalc

/-! ## Errors at the end of the tokens -/

namespace ParseError

/-- The tokens have ended too early. -/
def AtEnd : ParseError → Prop
  | endBefore _ => True
  | endOfExpression => True
  | _ => False

/-- Further tokens at the end may make the error go away. -/
def IsOpen (cause : ParseError) : Prop := cause = strayToken .minus ∨ cause.AtEnd

end ParseError

/-- Messages that say that the tokens have ended too early. -/
def IsEndMessage (message : Text) : Prop :=
  message = ("Unexpected end of expression" : Text) ∨
    ∃ kind : Token.Kind, message = "Expected " ++ kind.describe ++ ", but reached end of input"

/-- A description is one word, with no comma at its end. -/
theorem Token.Kind.describe_word (kind : Kind) (rest : Text) :
    (kind.describe ++ ' ' :: rest).takeWhile (· ≠ ' ') = kind.describe ∧
      (kind.describe ++ ',' :: ' ' :: rest).takeWhile (· ≠ ' ') = kind.describe ++ [','] := by
  cases kind <;> exact ⟨rfl, rfl⟩

/-- No kind is described as `statement`. -/
theorem Token.Kind.statement_ne (kind : Kind) (rest rest' : Text) :
    's' :: 't' :: 'a' :: rest ≠ kind.describe ++ rest' := by
  intro same
  cases kind <;> cases congrArg (List.take 3) same

/-- The word behind a common start describes a kind, or ends in a comma. -/
theorem Token.Kind.describe_ne (kind kind' : Kind) (start between rest rest' : Text) :
    start ++ kind.describe ++ ' ' :: between ++ rest ≠
      start ++ kind'.describe ++ ',' :: ' ' :: rest' := by
  have last : kind.describe.getLast? ≠ some ',' := by cases kind <;> decide
  intro same
  rw [List.append_assoc, List.append_assoc, List.append_assoc] at same
  have word := congrArg (List.takeWhile (· ≠ ' ')) (List.append_cancel_left same)
  rw [List.cons_append, (kind.describe_word _).1, (kind'.describe_word _).2] at word
  rw [word, List.getLast?_concat] at last
  exact last rfl

namespace ParseError

/-- The wording of an error tells whether the tokens have ended too early. -/
theorem isEndMessage_iff {cause : ParseError} : IsEndMessage cause.message ↔ cause.AtEnd := by
  constructor
  · rintro (same | ⟨kind, same⟩)
    · cases cause with
      | endBefore | endOfExpression => trivial
      | mismatch | noStatement | tooDeep => cases congrArg List.head? same
      | strayCharacter | strayToken => cases congrArg (List.head? <| List.drop 11 ·) same
      | unreadable => cases congrArg (List.head? <| List.drop 2 ·) same
    · cases cause with
      | endBefore | endOfExpression => trivial
      | mismatch expected found =>
        exact absurd same (expected.describe_ne kind "Expected " "but found " _ _)
      | noStatement found =>
        exact absurd (congrArg (List.drop 9) same) (kind.statement_ne _ _)
      | strayCharacter | strayToken | unreadable => cases congrArg List.head? same
      | tooDeep => cases congrArg (List.head? <| List.drop 3 ·) same
  · intro atEnd
    cases cause with
    | endBefore kind => exact .inr ⟨kind, rfl⟩
    | endOfExpression => exact .inl rfl
    | _ => exact atEnd.elim

end ParseError

namespace ParseFailure

variable {α β : Type} {failure : ParseFailure} {later tokens : List Token}

/-- How an error on `tokens` bears on the result on `tokens` and `later` ones. -/
structure Stands (failure : ParseFailure) (later tokens : List Token)
    (result : Except ParseFailure α) : Prop where
  suffix : failure.rest <:+ tokens
  /-- If it is about the end, it has been found there. -/
  consumed : failure.cause.AtEnd → failure.rest = []
  /-- If tokens are left, or the error is not open, it is found again. -/
  final : failure.rest ≠ [] ∨ ¬failure.cause.IsOpen →
    result = .error ⟨failure.cause, failure.rest ++ later⟩

namespace Stands

variable {result : Except ParseFailure α} (h : failure.Stands later tokens result)
include h

/-- Tokens that have been consumed before. -/
theorem mono {tokens' : List Token} (suffix : tokens <:+ tokens') :
    failure.Stands later tokens' result :=
  ⟨h.suffix.trans suffix, h.consumed, h.final⟩

/-- Whatever would have come next. -/
theorem bind (next : α → Except ParseFailure β) :
    failure.Stands later tokens (result >>= next) := by
  refine ⟨h.suffix, h.consumed, fun closed => ?_⟩
  rw [h.final closed]
  rfl

end Stands

end ParseFailure

namespace Parse

variable {α β : Type} {later tokens : List Token}

/-- How the result of a reader on `tokens` bears on its result on `tokens` and `later` ones. -/
inductive Persists (later tokens : List Token) :
    Except ParseFailure (α × List Token) → Except ParseFailure (α × List Token) → Prop
  /-- What has been read before the end is read again. -/
  | read {a rest result} (suffix : rest <:+ tokens)
    (again : rest ≠ [] → result = .ok (a, rest ++ later)) :
    Persists later tokens (.ok (a, rest)) result
  /-- What is wrong before the end, or at the end but for another reason, is found again. -/
  | failed {cause rest} (suffix : rest <:+ tokens) (inside : ¬cause.AtEnd) :
    Persists later tokens (.error ⟨cause, rest⟩) (.error ⟨cause, rest ++ later⟩)
  /-- Nothing is known about what an end has prevented. -/
  | ended {cause result} (isOpen : cause.IsOpen) : Persists later tokens (.error ⟨cause, []⟩) result

namespace Persists

/-- A reader that consumes nothing. -/
theorem pure {a : α} : Persists later tokens (.ok (a, tokens)) (.ok (a, tokens ++ later)) :=
  .read List.suffix_rfl fun _ => rfl

/-- A value at the end. -/
theorem dry {a : α} {result : Except ParseFailure (α × List Token)} :
    Persists later tokens (.ok (a, [])) result :=
  .read List.nil_suffix fun inside => absurd rfl inside

/-- An error in place. -/
theorem fail {cause : ParseError} (inside : ¬cause.AtEnd) :
    Persists (α := α) later tokens (.error ⟨cause, tokens⟩) (.error ⟨cause, tokens ++ later⟩) :=
  .failed List.suffix_rfl inside

/-- Tokens that have been consumed before. -/
theorem mono {tokens' : List Token} {result result' : Except ParseFailure (α × List Token)}
    (h : Persists later tokens result result') (suffix : tokens <:+ tokens') :
    Persists later tokens' result result' := by
  cases h with
  | read suffix' again => exact .read (suffix'.trans suffix) again
  | failed suffix' inside => exact .failed (suffix'.trans suffix) inside
  | ended isOpen => exact .ended isOpen

theorem cons {token : Token} {result result' : Except ParseFailure (α × List Token)}
    (h : Persists later tokens result result') : Persists later (token :: tokens) result result' :=
  h.mono (List.suffix_cons token tokens)

/-- A reader and then another one. If the first has come to the end, it is not known to go on as it
does there, so what the other one makes of the end must not be final. -/
theorem bind {first first' : Except ParseFailure (α × List Token)}
    {next next' : α × List Token → Except ParseFailure (β × List Token)}
    (h : Persists later tokens first first')
    (atEnd : ∀ a result, Persists later [] (next (a, [])) result)
    (hnext : ∀ a rest, rest <:+ tokens →
      Persists later rest (next (a, rest)) (next' (a, rest ++ later))) :
    Persists later tokens (first >>= next) (first' >>= next') := by
  cases h with
  | @read a rest result suffix again =>
    cases rest with
    | nil => exact (atEnd a _).mono List.nil_suffix
    | cons token rest =>
      rw [again (List.cons_ne_nil token rest)]
      exact (hnext a _ suffix).mono suffix
  | failed suffix inside => exact .failed suffix inside
  | ended isOpen => exact .ended isOpen

/-- A token of the expected kind, and then another reader. -/
theorem expect {kind : Token.Kind}
    {next : Text × List Token → Except ParseFailure (α × List Token)}
    (h : ∀ text rest, Persists later rest (next (text, rest)) (next (text, rest ++ later))) :
    Persists later tokens (Parse.expect kind tokens >>= next)
      (Parse.expect kind (tokens ++ later) >>= next) := by
  cases tokens with
  | nil => exact .ended (.inr trivial)
  | cons token rest =>
    rw [List.cons_append, Parse.expect, Parse.expect]
    by_cases found : token.kind = kind
    · rw [if_pos found, if_pos found]
      exact (h token.text rest).cons
    · rw [if_neg found, if_neg found]
      exact .fail id

/-- The number of a number token, and then another reader. -/
theorem readNumber {text : Text}
    {next : Float × List Token → Except ParseFailure (α × List Token)}
    (h : ∀ value, Persists later tokens (next (value, tokens)) (next (value, tokens ++ later))) :
    Persists later tokens (Parse.readNumber text tokens >>= next)
      (Parse.readNumber text (tokens ++ later) >>= next) := by
  rw [Parse.readNumber, Parse.readNumber]
  cases Number.read? text with
  | none => exact .fail id
  | some value => exact h value

/-- What a reader that persists has read. -/
theorem again {a : α} {rest : List Token} {result : Except ParseFailure (α × List Token)}
    (h : Persists later tokens (.ok (a, rest)) result) :
    rest <:+ tokens ∧ (rest ≠ [] → result = .ok (a, rest ++ later)) := by
  cases h with
  | read suffix again => exact ⟨suffix, again⟩

/-- An error of a reader that persists. -/
theorem stands {failure : ParseFailure} {result : Except ParseFailure (α × List Token)}
    (h : Persists later tokens (.error failure) result) : failure.Stands later tokens result := by
  cases h with
  | failed suffix inside => exact ⟨suffix, fun atEnd => absurd atEnd inside, fun _ => rfl⟩
  | ended isOpen =>
    refine ⟨List.nil_suffix, fun _ => rfl, ?_⟩
    rintro (inside | closed)
    · exact absurd rfl inside
    · exact absurd isOpen closed

end Persists

/-- The results of a reader persist, whatever comes later. -/
def Persistent (read : Reader α) : Prop :=
  ∀ later tokens, Persists later tokens (read tokens) (read (tokens ++ later))

/-- A chain that goes on as long as an operator follows, with fuel for all tokens there are. -/
theorem persists_chainFrom {operand : Reader Expr} {isOperator : Token.Kind → Bool}
    (hoperand : Persistent operand) {fuel fuel' : Nat} (le : tokens.length ≤ fuel)
    (le' : (tokens ++ later).length ≤ fuel') (left : Expr) :
    Persists later tokens (chainFrom operand isOperator fuel left tokens)
      (chainFrom operand isOperator fuel' left (tokens ++ later)) := by
  -- By induction on the fuel. An operator is consumed each time, so both sides have enough left.
  induction fuel generalizing fuel' left tokens with
  | zero =>
    obtain rfl := List.length_eq_zero_iff.1 (Nat.le_zero.1 le)
    exact .dry
  | succ fuel ih =>
    cases tokens with
    | nil => exact .dry
    | cons op tokens =>
      rw [List.length_cons, Nat.add_le_add_iff_right] at le
      cases fuel' with
      | zero => exact absurd le' (Nat.not_succ_le_zero _)
      | succ fuel' =>
        rw [List.cons_append, List.length_cons, Nat.add_le_add_iff_right] at le'
        rw [List.cons_append, chainFrom, chainFrom]
        by_cases isOp : isOperator op.kind = true
        · rw [if_pos isOp, if_pos isOp]
          refine .cons ((hoperand later tokens).bind (fun _ _ => ?_) fun right rest suffix => ?_)
          · cases fuel <;> exact .dry
          · have shorter := suffix.length_le
            rw [List.length_append] at le'
            exact ih (by omega) (by rw [List.length_append]; omega) _
        · rw [if_neg isOp, if_neg isOp]
          exact .pure

theorem persistent_chain {operand : Reader Expr} {isOperator : Token.Kind → Bool}
    (hoperand : Persistent operand) : Persistent (chain operand isOperator) := fun later tokens =>
  (hoperand later tokens).bind (fun _ _ => .dry) fun left _ _ =>
    persists_chainFrom hoperand (Nat.le_refl _) (Nat.le_refl _) left

theorem persistent_stop {cause : ParseError} (inside : ¬cause.AtEnd) :
    Persistent (stop (α := α) cause) :=
  fun _ _ => .fail inside

/-! ## Expressions -/

section Primary

variable {sum : Reader Expr} (hsum : Persistent sum)
include hsum

theorem persistent_group : Persistent (group sum) := by
  intro later tokens
  refine .expect fun _ tokens => ?_
  refine (hsum later tokens).bind (fun _ _ => .ended (.inr trivial)) fun inner tokens _ => ?_
  exact .expect fun _ tokens => .pure

theorem persistent_rangeLiteral : Persistent (rangeLiteral sum) := by
  intro later tokens
  refine .expect fun _ tokens => ?_
  refine (hsum later tokens).bind (fun _ _ => .ended (.inr trivial)) fun first tokens _ => ?_
  refine .expect fun _ tokens => ?_
  refine (hsum later tokens).bind (fun _ _ => .ended (.inr trivial)) fun last tokens _ => ?_
  exact .expect fun _ tokens => .pure

theorem persistent_mapping : Persistent (mapping sum) := by
  intro later tokens
  refine .expect fun _ tokens => ?_
  refine .expect fun _ tokens => ?_
  refine (hsum later tokens).bind (fun _ _ => .ended (.inr trivial)) fun source tokens _ => ?_
  refine .expect fun _ tokens => ?_
  refine .expect fun param tokens => ?_
  refine .expect fun _ tokens => ?_
  refine (hsum later tokens).bind (fun _ _ => .ended (.inr trivial)) fun body tokens _ => ?_
  exact .expect fun _ tokens => .pure

theorem persistent_reduction : Persistent (reduction sum) := by
  intro later tokens
  refine .expect fun _ tokens => ?_
  refine .expect fun _ tokens => ?_
  refine (hsum later tokens).bind (fun _ _ => .ended (.inr trivial)) fun source tokens _ => ?_
  refine .expect fun _ tokens => ?_
  refine (hsum later tokens).bind (fun _ _ => .ended (.inr trivial)) fun neutral tokens _ => ?_
  refine .expect fun _ tokens => ?_
  refine .expect fun param₁ tokens => ?_
  refine .expect fun param₂ tokens => ?_
  refine .expect fun _ tokens => ?_
  refine (hsum later tokens).bind (fun _ _ => .ended (.inr trivial)) fun body tokens _ => ?_
  exact .expect fun _ tokens => .pure

/-- What follows a minus sign. -/
theorem persistent_negated : Persistent (negated sum) := by
  intro later tokens
  rw [negated.eq_def, negated.eq_def]
  cases tokens with
  | nil => exact .ended (.inl rfl)
  | cons token rest =>
    obtain ⟨kind, text, pos⟩ := token
    cases kind with
    | ident => exact .cons .pure
    | lpar => exact (persistent_group hsum later _).bind (fun _ _ => .dry) fun _ _ _ => .pure
    | number => exact .cons (.readNumber fun _ => .pure)
    | _ => exact .fail id

theorem persistent_primary : Persistent (primary sum) := by
  intro later tokens
  cases tokens with
  | nil => exact .ended (.inr trivial)
  | cons token rest =>
    rw [List.cons_append, primary, primary]
    obtain ⟨kind, text, pos⟩ := token
    cases kind with
    | minus => exact .cons (persistent_negated hsum later rest)
    | number => exact .cons (.readNumber fun _ => .pure)
    | ident => exact .cons .pure
    | lpar => exact persistent_group hsum later _
    | lbrace => exact persistent_rangeLiteral hsum later _
    | map => exact persistent_mapping hsum later _
    | reduce => exact persistent_reduction hsum later _
    | _ => exact .fail id

end Primary

theorem persistent_powerOf {base exponent : Reader Expr} (hbase : Persistent base)
    (hexponent : Persistent exponent) : Persistent (powerOf base exponent) := by
  intro later tokens
  refine (hbase later tokens).bind (fun _ _ => .dry) fun left rest _ => ?_
  cases rest with
  | nil => exact .dry
  | cons token rest =>
    obtain ⟨kind, op, pos⟩ := token
    cases kind with
    | caret =>
      exact .cons ((hexponent later rest).bind (fun _ _ => .dry) fun _ _ _ => .pure)
    | _ => exact .pure

theorem persistent_sumOf {power : Reader Expr} (hpower : Persistent power) :
    Persistent (sumOf power) :=
  persistent_chain (persistent_chain hpower)

/-- A power, by induction on the levels that may still be opened. -/
theorem persistent_power (room : Nat) : Persistent (power room) := by
  -- The levels are counted from the front, so that too many are open does not depend on the end.
  have tooDeep : Persistent (stop (α := Expr) .tooDeep) := persistent_stop id
  induction room with
  | zero => exact persistent_powerOf (persistent_primary tooDeep) tooDeep
  | succ room ih => exact persistent_powerOf (persistent_primary (persistent_sumOf ih)) ih

theorem persistent_sum (room : Nat) : Persistent (sum room) := by
  cases room with
  | zero => exact persistent_stop id
  | succ room => exact persistent_sumOf (persistent_power room)

/-! ## Statements -/

/-- A statement is read again if it does not end with the tokens, and it consumes a token at least.
Otherwise no statement starts with the first token. -/
theorem persists_statement (later : List Token) (token : Token) (rest : List Token) :
    (∀ more, statement (token :: more) = .error ⟨.noStatement token, token :: more⟩) ∨
      Persists later rest (statement (token :: rest)) (statement (token :: (rest ++ later))) := by
  obtain ⟨kind, text, pos⟩ := token
  cases kind with
  | var =>
    right
    refine .expect fun name rest => .expect fun _ rest => ?_
    exact (persistent_sum maxLevels later rest).bind (fun _ _ => .dry) fun _ _ _ => .pure
  | out =>
    right
    exact (persistent_sum maxLevels later rest).bind (fun _ _ => .dry) fun _ _ _ => .pure
  | print => exact .inr (.expect fun _ _ => .pure)
  | _ => exact .inl fun _ => rfl

/-- An error among statements, with fuel for all tokens there are. -/
theorem stands_statements {fuel fuel' : Nat} {failure : ParseFailure}
    (h : statements fuel tokens = .error failure) (le : tokens.length ≤ fuel)
    (le' : (tokens ++ later).length ≤ fuel') :
    failure.Stands later tokens (statements fuel' (tokens ++ later)) := by
  induction fuel generalizing fuel' tokens with
  | zero => cases h
  | succ fuel ih =>
    cases tokens with
    | nil => cases h
    | cons token tokens =>
      cases fuel' with
      | zero => exact absurd le' (Nat.not_succ_le_zero _)
      | succ fuel' =>
        rw [List.length_cons, Nat.add_le_add_iff_right] at le
        rw [List.cons_append, List.length_cons, Nat.add_le_add_iff_right] at le'
        rw [List.cons_append, statements]
        rcases persists_statement later token tokens with other | persists
        · rw [statements, other] at h
          cases h
          rw [other]
          exact ⟨List.suffix_rfl, nofun, fun _ => rfl⟩
        · refine .mono ?_ (List.suffix_cons token tokens)
          rcases Result.bind_eq_error.1 h with first | ⟨⟨stmt, rest⟩, first, h⟩
          · rw [first] at persists
            exact persists.stands.bind _
          · rcases Result.bind_eq_error.1 h with others | ⟨_, _, ⟨⟩⟩
            rw [first] at persists
            obtain ⟨suffix, again⟩ := persists.again
            -- There is an error behind the statement, so it does not end with the tokens.
            have inside : rest ≠ [] := by
              rintro rfl
              cases fuel <;> cases others
            have shorter := suffix.length_le
            rw [List.length_append] at le'
            have stands : failure.Stands later rest (statements fuel' (rest ++ later)) :=
              ih others (by omega) (by rw [List.length_append]; omega)
            rw [again inside]
            exact (stands.bind _).mono suffix

end Parse

/-! ## Programs -/

/-- A syntax error is final: if it leaves tokens, or does not say that they have ended, the same is
wrong with the program whatever tokens come later. The exception is a minus sign with nothing to
negate behind it. An error that says that the tokens have ended leaves none.

The number tokens need not be readable, since an unreadable number is as final. -/
theorem Program.parse_append_of_error {tokens : List Token} {failure : ParseFailure}
    (h : Program.parse tokens = .error failure) :
    failure.rest <:+ tokens ∧ (IsEndMessage failure.cause.message → failure.rest = []) ∧
      (failure.rest ≠ [] ∨ ¬IsEndMessage failure.cause.message ∧
          failure.cause.message ≠ ("Unexpected token \"-\" in expression" : Text) →
        ∀ later, Program.parse (tokens ++ later) =
          .error ⟨failure.cause, failure.rest ++ later⟩) := by
  have stands (later : List Token) :
      failure.Stands later tokens (Program.parse (tokens ++ later)) :=
    Parse.stands_statements h (Nat.le_refl _) (Nat.le_refl _)
  refine ⟨(stands []).suffix, fun ending => ?_, fun closed later => ?_⟩
  · exact (stands []).consumed (ParseError.isEndMessage_iff.1 ending)
  · refine (stands later).final (closed.imp_right fun ⟨noEnd, noMinus⟩ isOpen => ?_)
    rcases isOpen with minus | atEnd
    · exact noMinus (congrArg ParseError.message minus)
    · exact noEnd (ParseError.isEndMessage_iff.2 atEnd)

/-- A minus sign at the end is an error that goes away when a name comes next. -/
example :
    Program.parse [⟨.out, "out", 0⟩, ⟨.minus, "-", 4⟩] = .error ⟨.strayToken .minus, []⟩ ∧
      Program.parse [⟨.out, "out", 0⟩, ⟨.minus, "-", 4⟩, ⟨.ident, "x", 5⟩] =
        .ok [.out (.negate (.ident "x"))] :=
  ⟨rfl, rfl⟩

/-- The tokens of `out (x y` are no start of a program, and those of `out {x` end too early. -/
theorem Program.parse_append_of_error_of_open_parenthesis :
    let unclosed : List Token :=
      [⟨.out, "out", 0⟩, ⟨.lpar, "(", 4⟩, ⟨.ident, "x", 5⟩, ⟨.ident, "y", 7⟩]
    let unfinished : List Token := [⟨.out, "out", 0⟩, ⟨.lbrace, "\x7b", 4⟩, ⟨.ident, "x", 5⟩]
    (∀ later, Program.parse (unclosed ++ later) =
        .error ⟨.mismatch .rpar ⟨.ident, "y", 7⟩, ⟨.ident, "y", 7⟩ :: later⟩) ∧
      ∃ failure, Program.parse unfinished = .error failure ∧
        failure.cause.message = ("Expected \",\", but reached end of input" : Text) ∧
        failure.rest = [] := by
  intro unclosed unfinished
  have wrong : Program.parse unclosed =
      .error ⟨.mismatch .rpar ⟨.ident, "y", 7⟩, [⟨.ident, "y", 7⟩]⟩ := rfl
  have short : Program.parse unfinished = .error ⟨.endBefore .comma, []⟩ := rfl
  obtain ⟨-, -, final⟩ := Program.parse_append_of_error wrong
  obtain ⟨-, consumed, -⟩ := Program.parse_append_of_error short
  exact ⟨final (.inl (List.cons_ne_nil _ _)), _, short, rfl, consumed (.inr ⟨.comma, rfl⟩)⟩

end RangeCalc
