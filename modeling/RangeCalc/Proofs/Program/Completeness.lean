import RangeCalc.Proofs.Program.Soundness

/-!
# Completeness of parsing

A phrase of the grammar is read back as what it denotes if there is room for all levels that it
opens, and else the reader stops because it is too deep. No other outcome is possible (`Resolves`).

Where a phrase ends is decided by the token behind it. A primary ends by itself; a power ends where
no `^` follows, a product where no operator of products follows either, and a sum where no operator
follows at all. A sum or product that goes on behind some operands is in the middle of a chain, so
what is shown of these phrases by induction is how far into the chain they lead (`Complete`).

* `Parse.complete_of_derives`: phrases of expressions;
* `Parse.statements_of_derives`: programs;
* `Program.parse_eq_ok_iff_derives`: parsing accepts just the grammar.
-/

namespace RangeCalc

namespace Parse

variable {α β : Type}

/-! ## Results of reading a phrase -/

theorem expect_bind {kind : Token.Kind} {token : Token} {rest : List Token}
    {next : Text × List Token → Except ParseFailure α} (h : token.kind = kind) :
    (expect kind (token :: rest) >>= next) = next (token.text, rest) := by
  rw [expect, if_pos h]
  rfl

/-- A result that is as expected if there is room for so many levels, and else too deep. -/
def Resolves (height room : Nat) (result expected : Except ParseFailure α) : Prop :=
  (height ≤ room → result = expected) ∧
    (room < height → ∃ rest, result = .error ⟨.tooDeep, rest⟩)

namespace Resolves

variable {height height₁ height₂ room : Nat}

theorem refl (result : Except ParseFailure α) : Resolves 0 room result result :=
  ⟨fun _ => rfl, fun lt => absurd lt (Nat.not_lt_zero _)⟩

theorem trans {a b c : Except ParseFailure α} (first : Resolves height₁ room a b)
    (second : Resolves height₂ room b c) : Resolves (max height₁ height₂) room a c := by
  constructor
  · intro le
    obtain ⟨le₁, le₂⟩ := Nat.max_le.1 le
    rw [first.1 le₁, second.1 le₂]
  · intro lt
    -- The first of the two that is too deep decides.
    by_cases le₁ : height₁ ≤ room
    · rw [first.1 le₁]
      exact second.2 (by omega)
    · exact first.2 (Nat.lt_of_not_le le₁)

/-- A chain goes on with what its first reader gives. -/
theorem of_bind {first : Except ParseFailure α} {a : α} {next : α → Except ParseFailure β}
    (h : Resolves height room first (.ok a)) :
    Resolves height room (first >>= next) (next a) := by
  constructor
  · intro le
    rw [h.1 le]
    rfl
  · intro lt
    obtain ⟨rest, tooDeep⟩ := h.2 lt
    exact ⟨rest, by rw [tooDeep]; rfl⟩

/-- A chain whose later readers open no levels. -/
theorem last {first : Except ParseFailure α} {a : α} {next : α → Except ParseFailure β}
    {expected : Except ParseFailure β} (h : Resolves height room first (.ok a))
    (hnext : next a = expected) : Resolves height room (first >>= next) expected :=
  hnext ▸ h.of_bind

theorem bind {first : Except ParseFailure α} {a : α} {next : α → Except ParseFailure β}
    {expected : Except ParseFailure β} (h : Resolves height₁ room first (.ok a))
    (hnext : Resolves height₂ room (next a) expected) :
    Resolves (max height₁ height₂) room (first >>= next) expected :=
  h.of_bind.trans hnext

/-- A phrase that opens one more level. -/
theorem succ {result expected : Except ParseFailure α} (h : Resolves height room result expected) :
    Resolves (height + 1) (room + 1) result expected :=
  ⟨fun le => h.1 (Nat.le_of_succ_le_succ le), fun lt => h.2 (Nat.lt_of_succ_lt_succ lt)⟩

/-- A token of the expected kind is passed over. -/
theorem expect {kind : Token.Kind} {token : Token} {rest : List Token}
    {next : Text × List Token → Except ParseFailure α} {expected : Except ParseFailure α}
    (h : token.kind = kind) (hnext : Resolves height room (next (token.text, rest)) expected) :
    Resolves height room (Parse.expect kind (token :: rest) >>= next) expected := by
  rwa [expect_bind h]

/-- Where no level may be opened, the reader stops. -/
theorem stop {tokens : List Token} {expected : Except ParseFailure (α × List Token)}
    (pos : 0 < height) : Resolves height 0 (Parse.stop .tooDeep tokens) expected :=
  ⟨fun le => absurd le (Nat.not_le_of_lt pos), fun _ => ⟨tokens, rfl⟩⟩

end Resolves

/-- The first of the tokens, if there is one, is of no kind that `p` picks. -/
def Avoids (p : Token.Kind → Bool) (tokens : List Token) : Prop :=
  ∀ token ∈ tokens.head?, p token.kind = false

theorem avoids_cons {p : Token.Kind → Bool} {token : Token} {tokens : List Token}
    (h : p token.kind = false) : Avoids p (token :: tokens) := by
  rintro _ ⟨⟩
  exact h

/-- The operator of a power. -/
def isPowerOperator (kind : Token.Kind) : Bool := kind == .caret

/-- The operators, which continue a sum. -/
def isOperator (kind : Token.Kind) : Bool :=
  isSumOperator kind || isProductOperator kind || isPowerOperator kind

theorem Avoids.of_operator {tokens : List Token} (h : Avoids isOperator tokens) :
    Avoids isSumOperator tokens ∧ Avoids isProductOperator tokens ∧
      Avoids isPowerOperator tokens := by
  refine ⟨fun token mem => ?_, fun token mem => ?_, fun token mem => ?_⟩ <;>
    · have none := h token mem
      simp only [isOperator, Bool.or_eq_false_iff] at none
      simp only [none]

/-! ## Chains -/

section Chain

variable {operand : Reader Expr} {isOp : Token.Kind → Bool} {height height₁ height₂ room : Nat}

/-- A chain ends where none of its operators follows. -/
theorem chainFrom_of_avoids {rest : List Token} (h : Avoids isOp rest) (fuel : Nat) (e : Expr) :
    chainFrom operand isOp fuel e rest = .ok (e, rest) := by
  cases fuel with
  | zero => rfl
  | succ fuel =>
    cases rest with
    | nil => rfl
    | cons token rest => rw [chainFrom, h token rfl, if_neg Bool.false_ne_true]

/-- A chain of a single operand so far. -/
theorem resolves_chain {tokens rest : List Token} {e : Expr}
    (h : Resolves height room (operand tokens) (.ok (e, rest))) :
    Resolves height room (chain operand isOp tokens)
      (chainFrom operand isOp rest.length e rest) :=
  h.of_bind

/-- A chain with one more operand. -/
theorem resolves_extend {fuel : Nat} {tokens rest : List Token} {left right : Expr} {op : Token}
    {result : Except ParseFailure (Expr × List Token)}
    (le : (op :: (tokens ++ rest)).length ≤ fuel)
    (leads : Resolves height₁ room result
      (chainFrom operand isOp fuel left (op :: (tokens ++ rest))))
    (sign : isOp op.kind = true)
    (h : Resolves height₂ room (operand (tokens ++ rest)) (.ok (right, rest))) :
    ∃ less, rest.length ≤ less ∧ Resolves (max height₁ height₂) room result
      (chainFrom operand isOp less (.binary left op.text right) rest) := by
  cases fuel with
  | zero => exact absurd le (Nat.not_succ_le_zero _)
  | succ less =>
    refine ⟨less, ?_, leads.trans ?_⟩
    · rw [List.length_cons, List.length_append] at le
      omega
    · rw [chainFrom, if_pos sign]
      exact h.of_bind

end Chain

/-! ## Primaries -/

/-- A sum is read back, whatever follows that does not continue it. -/
def ReadsBack (sum : Reader Expr) (height room : Nat) (tokens : List Token) (e : Expr) : Prop :=
  ∀ rest, Avoids isOperator rest → Resolves height room (sum (tokens ++ rest)) (.ok (e, rest))

section Primary

variable {sum : Reader Expr} {room height₁ height₂ height₃ : Nat}
  {tokens₁ tokens₂ tokens₃ : List Token} {e₁ e₂ e₃ : Expr} (rest : List Token)

/-- A sum in front of a token that is no operator. -/
theorem ReadsBack.before (h : ReadsBack sum height₁ room tokens₁ e₁) {token : Token}
    {kind : Token.Kind} (other : token.kind = kind) (not_op : isOperator kind = false) :
    Resolves height₁ room (sum (tokens₁ ++ token :: rest)) (.ok (e₁, token :: rest)) :=
  h (token :: rest) (avoids_cons (other ▸ not_op))

theorem resolves_group {lpar rpar : Token} (opening : lpar.kind = .lpar)
    (inner : ReadsBack sum height₁ room tokens₁ e₁) (closing : rpar.kind = .rpar) :
    Resolves height₁ room (group sum (lpar :: (tokens₁ ++ rpar :: rest))) (.ok (e₁, rest)) := by
  refine .expect opening ?_
  exact (inner.before rest closing rfl).last (expect_bind closing)

theorem resolves_rangeLiteral {lbrace comma rbrace : Token} (opening : lbrace.kind = .lbrace)
    (lower : ReadsBack sum height₁ room tokens₁ e₁) (between : comma.kind = .comma)
    (upper : ReadsBack sum height₂ room tokens₂ e₂) (closing : rbrace.kind = .rbrace) :
    Resolves (max height₁ height₂) room
      (rangeLiteral sum (lbrace :: (tokens₁ ++ comma :: (tokens₂ ++ rbrace :: rest))))
      (.ok (.range e₁ e₂, rest)) := by
  refine .expect opening ?_
  refine (lower.before _ between rfl).bind ?_
  refine .expect between ?_
  exact (upper.before rest closing rfl).last (expect_bind closing)

theorem resolves_mapping {map lpar comma param arrow rpar : Token} (keyword : map.kind = .map)
    (opening : lpar.kind = .lpar) (argument : ReadsBack sum height₁ room tokens₁ e₁)
    (between : comma.kind = .comma) (name : param.kind = .ident) (points : arrow.kind = .arrow)
    (lambda : ReadsBack sum height₂ room tokens₂ e₂) (closing : rpar.kind = .rpar) :
    Resolves (max height₁ height₂) room
      (mapping sum
        (map :: lpar :: (tokens₁ ++ comma :: param :: arrow :: (tokens₂ ++ rpar :: rest))))
      (.ok (.map e₁ param.text e₂, rest)) := by
  refine .expect keyword (.expect opening ?_)
  refine (argument.before _ between rfl).bind ?_
  refine .expect between (.expect name (.expect points ?_))
  exact (lambda.before rest closing rfl).last (expect_bind closing)

theorem resolves_reduction {reduce lpar comma₁ comma₂ param₁ param₂ arrow rpar : Token}
    (keyword : reduce.kind = .reduce) (opening : lpar.kind = .lpar)
    (argument : ReadsBack sum height₁ room tokens₁ e₁) (between₁ : comma₁.kind = .comma)
    (start : ReadsBack sum height₂ room tokens₂ e₂) (between₂ : comma₂.kind = .comma)
    (name₁ : param₁.kind = .ident) (name₂ : param₂.kind = .ident) (points : arrow.kind = .arrow)
    (lambda : ReadsBack sum height₃ room tokens₃ e₃) (closing : rpar.kind = .rpar) :
    Resolves (max height₁ (max height₂ height₃)) room
      (reduction sum (reduce :: lpar :: (tokens₁ ++ comma₁ :: (tokens₂ ++
        comma₂ :: param₁ :: param₂ :: arrow :: (tokens₃ ++ rpar :: rest)))))
      (.ok (.reduce e₁ e₂ param₁.text param₂.text e₃, rest)) := by
  refine .expect keyword (.expect opening ?_)
  refine (argument.before _ between₁ rfl).bind ?_
  refine .expect between₁ ?_
  refine (start.before _ between₂ rfl).bind ?_
  refine .expect between₂ (.expect name₁ (.expect name₂ (.expect points ?_)))
  exact (lambda.before rest closing rfl).last (expect_bind closing)

end Primary

/-! ## Phrases -/

/-- What stands behind a `^`. It opens a level of its own. -/
def exponent : (room : Nat) → Reader Expr
  | 0 => stop .tooDeep
  | room + 1 => power room

theorem power_eq (room : Nat) : power room = powerOf (primary (sum room)) (exponent room) := by
  cases room <;> rfl

/-- A phrase is read back. Sums and products are chains, which may go on behind what the tokens make
up; reading the tokens then leads into the chain with the expression they denote on its left. -/
def Complete : Phrase → Nat → List Token → Expr → Prop
  | .primary, height, tokens, e => ∀ room rest,
    Resolves height room (primary (sum room) (tokens ++ rest)) (.ok (e, rest))
  | .power, height, tokens, e => ∀ room rest, Avoids isPowerOperator rest →
    Resolves height room (power room (tokens ++ rest)) (.ok (e, rest))
  | .product, height, tokens, e => ∀ room rest, Avoids isPowerOperator rest →
    ∃ fuel, rest.length ≤ fuel ∧
      Resolves height room (chain (power room) isProductOperator (tokens ++ rest))
        (chainFrom (power room) isProductOperator fuel e rest)
  | .sum, height, tokens, e => 0 < height ∧
    ∀ room rest, Avoids isPowerOperator rest → Avoids isProductOperator rest →
      ∃ fuel, rest.length ≤ fuel ∧
        Resolves height (room + 1) (sumOf (power room) (tokens ++ rest))
          (chainFrom (chain (power room) isProductOperator) isSumOperator fuel e rest)

section Complete

variable {height height₁ height₂ : Nat} {tokens tokens₁ tokens₂ : List Token} {e left right : Expr}
  {op : Token}

/-- A product that no operator of products continues. -/
theorem Complete.product_read (h : Complete .product height tokens e) (room : Nat)
    {rest : List Token} (power : Avoids isPowerOperator rest)
    (product : Avoids isProductOperator rest) :
    Resolves height room (chain (Parse.power room) isProductOperator (tokens ++ rest))
      (.ok (e, rest)) := by
  obtain ⟨fuel, -, resolves⟩ := h room rest power
  rwa [chainFrom_of_avoids product] at resolves

/-- A sum that no operator continues. -/
theorem Complete.readsBack (h : Complete .sum height tokens e) (room : Nat) :
    ReadsBack (sum room) height room tokens e := by
  intro rest stops
  obtain ⟨sum, product, power⟩ := stops.of_operator
  -- A sum opens a level itself, so without room for one it is not read at all.
  cases room with
  | zero => exact .stop h.1
  | succ room =>
    obtain ⟨fuel, -, resolves⟩ := h.2 room rest power product
    rwa [chainFrom_of_avoids sum] at resolves

theorem complete_sum (only : Complete .product height tokens e) :
    Complete .sum (height + 1) tokens e := by
  refine ⟨Nat.succ_pos _, fun room rest power product => ⟨rest.length, Nat.le_refl _, ?_⟩⟩
  exact (resolves_chain (only.product_read room power product)).succ

theorem complete_add (first : Complete .sum height₁ tokens₁ left)
    (sign : op.kind = .plus ∨ op.kind = .minus) (last : Complete .product height₂ tokens₂ right) :
    Complete .sum (max height₁ (height₂ + 1)) (tokens₁ ++ op :: tokens₂)
      (.binary left op.text right) := by
  refine ⟨Nat.lt_of_lt_of_le first.1 (Nat.le_max_left _ _), fun room rest power product => ?_⟩
  rw [List.append_assoc, List.cons_append]
  -- The tokens in front of the operator lead into the chain, where the operator continues it.
  obtain ⟨fuel, le, leads⟩ := first.2 room (op :: (tokens₂ ++ rest))
    (avoids_cons (by rcases sign with sign | sign <;> rw [sign] <;> rfl))
    (avoids_cons (by rcases sign with sign | sign <;> rw [sign] <;> rfl))
  have isOp : isSumOperator op.kind = true := by simpa [isSumOperator] using sign
  exact resolves_extend le leads isOp (last.product_read room power product).succ

theorem complete_product (only : Complete .power height tokens e) :
    Complete .product height tokens e :=
  fun room rest power => ⟨rest.length, Nat.le_refl _, resolves_chain (only room rest power)⟩

theorem complete_multiply (first : Complete .product height₁ tokens₁ left)
    (sign : op.kind = .star ∨ op.kind = .slash) (last : Complete .power height₂ tokens₂ right) :
    Complete .product (max height₁ height₂) (tokens₁ ++ op :: tokens₂)
      (.binary left op.text right) := by
  intro room rest power
  rw [List.append_assoc, List.cons_append]
  obtain ⟨fuel, le, leads⟩ := first room (op :: (tokens₂ ++ rest))
    (avoids_cons (by rcases sign with sign | sign <;> rw [sign] <;> rfl))
  have isOp : isProductOperator op.kind = true := by simpa [isProductOperator] using sign
  exact resolves_extend le leads isOp (last room rest power)

theorem complete_power (only : Complete .primary height tokens e) :
    Complete .power height tokens e := by
  intro room rest power
  rw [power_eq]
  refine (only room rest).last ?_
  dsimp only
  -- The next token decides whether the power goes on, and it is no `^`.
  split
  · exact absurd (power _ rfl) nofun
  · rfl

theorem complete_raise (base : Complete .primary height₁ tokens₁ left) (sign : op.kind = .caret)
    (exponent : Complete .power height₂ tokens₂ right) :
    Complete .power (max height₁ (height₂ + 1)) (tokens₁ ++ op :: tokens₂)
      (.binary left op.text right) := by
  intro room rest power
  -- The power behind `^` is read with one level less.
  have raised : Resolves (height₂ + 1) room (Parse.exponent room (tokens₂ ++ rest))
      (.ok (right, rest)) := by
    cases room with
    | zero => exact .stop (Nat.succ_pos _)
    | succ room => exact (exponent room rest power).succ
  rw [power_eq, List.append_assoc, List.cons_append]
  refine (base room _).bind ?_
  obtain ⟨kind, text, pos⟩ := op
  obtain rfl : kind = .caret := sign
  exact raised.last rfl

/-- Every phrase of the grammar is read back, by induction on how it is made up. -/
theorem complete_of_derives {phrase : Phrase} (h : Expr.Derives phrase height tokens e) :
    Complete phrase height tokens e := by
  induction h with
  | sum _ ih => exact complete_sum ih
  | add _ sign _ first last => exact complete_add first sign last
  | product _ ih => exact complete_product ih
  | multiply _ sign _ first last => exact complete_multiply first sign last
  | power _ ih => exact complete_power ih
  | raise _ sign _ base exponent => exact complete_raise base sign exponent
  | number kind value_eq =>
    intro room rest
    simp only [List.singleton_append, primary, kind, readNumber, value_eq]
    exact .refl _
  | ident kind =>
    intro room rest
    simp only [List.singleton_append, primary, kind]
    exact .refl _
  | @negateIdent minus name sign kind =>
    intro room rest
    obtain ⟨_, text, pos⟩ := name
    obtain rfl := kind
    simp only [List.cons_append, primary, sign]
    exact .refl _
  | @negateNumber minus number value sign kind value_eq =>
    intro room rest
    obtain ⟨_, text, pos⟩ := number
    obtain rfl := kind
    simp only [List.cons_append, primary, sign, negated, readNumber, value_eq]
    exact .refl _
  | @negateGroup minus lpar rpar height tokens e sign opening _ closing inner =>
    intro room rest
    have group := resolves_group rest opening (inner.readsBack room) closing
    obtain ⟨_, text, pos⟩ := lpar
    obtain rfl := opening
    simp only [List.cons_append, List.append_assoc, List.nil_append, primary, sign, negated]
    exact group.last rfl
  | group opening _ closing inner =>
    intro room rest
    simp only [List.cons_append, List.append_assoc, List.nil_append, primary, opening]
    exact resolves_group rest opening (inner.readsBack room) closing
  | range opening _ between _ closing lower upper =>
    intro room rest
    simp only [List.cons_append, List.append_assoc, List.nil_append, primary, opening]
    exact resolves_rangeLiteral rest opening (lower.readsBack room) between (upper.readsBack room)
      closing
  | map keyword opening _ between name points _ closing argument lambda =>
    intro room rest
    simp only [List.cons_append, List.append_assoc, List.nil_append, primary, keyword]
    exact resolves_mapping rest keyword opening (argument.readsBack room) between name points
      (lambda.readsBack room) closing
  | reduce keyword opening _ between₁ _ between₂ name₁ name₂ points _ closing argument start
      lambda =>
    intro room rest
    simp only [List.cons_append, List.append_assoc, List.nil_append, primary, keyword]
    exact resolves_reduction rest keyword opening (argument.readsBack room) between₁
      (start.readsBack room) between₂ name₁ name₂ points (lambda.readsBack room) closing

end Complete

/-! ## Programs -/

/-- A program starts with a token that is no operator. -/
theorem avoids_of_derives {tokens : List Token} {program : Program}
    (h : Program.Derives tokens program) : Avoids isOperator tokens := by
  cases h with
  | nil => exact nofun
  | cons first others =>
    cases first with
    | var keyword _ _ _ _ => exact avoids_cons (by rw [keyword]; rfl)
    | out keyword _ _ => exact avoids_cons (by rw [keyword]; rfl)
    | print keyword _ _ => exact avoids_cons (by rw [keyword]; rfl)

/-- An expression that does not open too many levels is read whole, whatever program follows. -/
theorem sum_of_derives {height : Nat} {tokens rest : List Token} {e : Expr}
    (h : Expr.Derives .sum height tokens e) (bound : height ≤ maxLevels)
    (stops : Avoids isOperator rest) : sum maxLevels (tokens ++ rest) = .ok (e, rest) :=
  ((complete_of_derives h).readsBack maxLevels rest stops).1 bound

/-- A statement is read back, whatever program follows. -/
theorem statement_of_derives {tokens rest : List Token} {stmt : Stmt} (h : Stmt.Derives tokens stmt)
    (stops : Avoids isOperator rest) : statement (tokens ++ rest) = .ok (stmt, rest) := by
  cases h with
  | var keyword kind sign bound expr =>
    simp only [List.cons_append, statement, keyword, expect_bind kind, expect_bind sign]
    rw [sum_of_derives expr bound stops]
    rfl
  | out keyword bound expr =>
    simp only [List.cons_append, statement, keyword]
    rw [sum_of_derives expr bound stops]
    rfl
  | print keyword kind quoted =>
    simp only [List.cons_append, List.nil_append, statement, keyword, expect_bind kind, quoted,
      unquoted_quoted]
    rfl

/-- A program is read back, by induction on its statements. -/
theorem statements_of_derives {fuel : Nat} {tokens : List Token} {program : Program}
    (h : Program.Derives tokens program) (le : tokens.length ≤ fuel) :
    statements fuel tokens = .ok program := by
  induction h generalizing fuel with
  | nil => cases fuel <;> rfl
  | @cons tokens₁ tokens₂ stmt program first others ih =>
    have pos := first.length_pos
    rw [List.length_append] at le
    -- Nothing separates statements, but the keyword of the next one continues no expression.
    have read := statement_of_derives first (avoids_of_derives others)
    cases fuel with
    | zero => omega
    | succ fuel =>
      cases tokens₁ with
      | nil => exact absurd pos (Nat.lt_irrefl 0)
      | cons token tokens₁ =>
        rw [List.cons_append] at read ⊢
        rw [statements, read]
        show (statements fuel tokens₂ >>= fun others => pure (stmt :: others)) = _
        rw [ih (by omega)]
        rfl

end Parse

namespace Program

open Parse

/-- Well-formed tokens parse to a program if and only if the grammar derives it from them. So they
derive at most one program, and if they derive none, parsing fails with a syntax error. -/
theorem parse_eq_ok_iff_derives {tokens : List Token}
    (wellFormed : ∀ token ∈ tokens, token.WellFormed) :
    (∀ program, parse tokens = .ok program ↔ Derives tokens program) ∧
      ((¬∃ program, Derives tokens program) →
        ∃ failure, parse tokens = .error failure ∧ failure.cause.IsSyntax) ∧
      ∀ program program', Derives tokens program → Derives tokens program' →
        program = program' := by
  have same_as (program : Program) : parse tokens = .ok program ↔ Derives tokens program :=
    ⟨derives_of_statements (Nat.le_refl _) wellFormed,
      fun h => statements_of_derives h (Nat.le_refl _)⟩
  refine ⟨same_as, fun none => ?_, fun program program' h h' => ?_⟩
  · cases parsed : parse tokens with
    | ok program => exact absurd ⟨program, (same_as program).1 parsed⟩ none
    | error failure => exact ⟨failure, rfl, isSyntax_of_statements wellFormed parsed⟩
  · have parsed := (same_as program).2 h
    rw [(same_as program').2 h'] at parsed
    cases parsed
    rfl

/-- The tokens of `print "a" out -x ^ 2` make up two statements, `out` alone makes up none. -/
theorem parse_eq_ok_iff_derives_of_two_statements :
    Derives [⟨.print, "print", 0⟩, ⟨.string, "\"a\"", 6⟩, ⟨.out, "out", 10⟩, ⟨.minus, "-", 14⟩,
        ⟨.ident, "x", 15⟩, ⟨.caret, "^", 17⟩, ⟨.number, "2", 19⟩]
      [.print "a", .out (.binary (.negate (.ident "x")) "^" (.number 2))] ∧
    ∃ failure, parse [⟨.out, "out", 0⟩] = .error failure ∧ failure.cause.IsSyntax := by
  constructor
  · refine ((parse_eq_ok_iff_derives ?_).1 _).1 rfl
    simp only [List.forall_mem_cons]
    exact ⟨⟨nofun, nofun⟩, ⟨nofun, fun _ => ⟨"a", rfl⟩⟩, ⟨nofun, nofun⟩, ⟨nofun, nofun⟩,
      ⟨nofun, nofun⟩, ⟨nofun, nofun⟩, ⟨fun _ => ⟨2, rfl⟩, nofun⟩, nofun⟩
  · have wellFormed : ∀ token ∈ [(⟨.out, "out", 0⟩ : Token)], token.WellFormed := by
      simp only [List.forall_mem_cons]
      exact ⟨⟨nofun, nofun⟩, nofun⟩
    obtain ⟨same_as, fails, -⟩ := parse_eq_ok_iff_derives wellFormed
    refine fails ?_
    rintro ⟨program, derives⟩
    cases (same_as program).2 derives

end Program

end RangeCalc
