import RangeCalc.Proofs.Token.Lexeme
import RangeCalc.Proofs.Token.Rules

/-!
# The tokens of a program

Scanning goes through a program from its front to its end. What comes out can be said without going
through it: the tokens stand in the program one after the other, between them there is nothing but
gaps, and each of them is what the first rule that matches at its position matches there. There is
exactly one such list of tokens, and nothing of the program is lost in it.

* `Tokenizes`: the tokens of a program from a position on;
* `tokenizes_iff`: there is one list of them, and it is the one that scanning finds;
* `Tokenizes.rejoin_eq`: their texts and the gaps between them make up the program;
* `scan_partitions`: the same for the whole program.
-/

namespace RangeCalc.Token

/-- The tokens of a program from a position on. -/
structure Tokenizes (source : Text) (start : Nat) (tokens : List Token) : Prop where
  /-- They stand one after the other and do not overlap. -/
  ordered : tokens.Pairwise fun a b => a.pos + a.text.length ≤ b.pos
  /-- None of them stands before the position. -/
  le_pos : ∀ token ∈ tokens, start ≤ token.pos
  /-- The text of a token is what stands at its position, and not empty. -/
  slice : ∀ token ∈ tokens, token.text ≠ [] ∧ token.text <+: source.drop token.pos
  /-- A character from the position on that is part of no token is one of a gap. -/
  gap : ∀ i c, start ≤ i → source[i]? = some c →
    (∀ token ∈ tokens, ¬(token.pos ≤ i ∧ i < token.pos + token.text.length)) → isGap c = true
  /-- A token is what the first rule that matches says. A single character is an error if there is
  no such rule. -/
  rule : ∀ token ∈ tokens, firstRule? source token.pos = some (some token.kind, token.text) ∨
    firstRule? source token.pos = none ∧ token.kind = .error ∧ token.text.length = 1

/-! ## Lexemes and rules -/

section

variable {source rest : Text} {c : Char} {pos : Nat}

theorem Rule.kind_of_lexeme? {rule : Rule} {text : Text} {lexeme : Option Kind × Text}
    (h : rule.lexeme? text = some lexeme) : lexeme.1 = rule.kind := by
  rw [Rule.lexeme?] at h
  split at h
  · cases h
  · cases h
    rfl

/-- A lexeme is not empty and stands at the front. -/
theorem lexeme_spec {kind : Option Kind} {text : Text} (h : lexemeAt c rest = (kind, text)) :
    text ≠ [] ∧ text <+: c :: rest := by
  have spec := lexemeAt_spec c rest
  rwa [h] at spec

/-- Only gap characters start a gap. -/
theorem lexemeAt_of_not_gap (h : isGap c = false) (rest : Text) :
    ∃ kind text, lexemeAt c rest = (some kind, text) := by
  have gap_first : rules = ⟨none, takeGap⟩ :: rules.tail := rfl
  have kinds : ∀ rule ∈ rules.tail, ∃ kind, rule.kind = some kind := by simp [rules]
  have no_gap : Rule.lexeme? ⟨none, takeGap⟩ (c :: rest) = none := by
    simp only [Rule.lexeme?, takeGap_of_not_gap h]
  rw [lexemeAt, gap_first, List.findSome?_cons, no_gap]
  cases found : rules.tail.findSome? (·.lexeme? (c :: rest)) with
  | none => exact ⟨_, _, rfl⟩
  | some lexeme =>
    obtain ⟨rule, mem, taken⟩ := List.exists_of_findSome?_eq_some found
    obtain ⟨kind, kind_eq⟩ := kinds rule mem
    exact ⟨kind, lexeme.2, Prod.ext ((Rule.kind_of_lexeme? taken).trans kind_eq) rfl⟩

/-- A lexeme that makes up a token, wherever it stands. -/
theorem scanFrom_token {kind : Kind} {text : Text} (h : lexemeAt c rest = (some kind, text))
    (pos : Nat) :
    scanFrom 0 pos (c :: rest) =
      ⟨kind, text, pos⟩ :: scanFrom 0 (pos + text.length) ((c :: rest).drop text.length) := by
  obtain ⟨ne, behind, eq⟩ := lexeme_spec h
  obtain ⟨d, text, rfl⟩ := List.exists_cons_of_ne_nil ne
  obtain ⟨rfl, rfl⟩ := List.cons.inj (List.cons_append.symm.trans eq)
  rw [← eq, List.drop_left]
  exact scanFrom_of_lexemeAt h pos

/-- The lexeme at a position is a token if it is what the first rule that matches there says. -/
theorem lexemeAt_eq_iff (h : source.drop pos = c :: rest) {kind : Kind} {text : Text} :
    lexemeAt c rest = (some kind, text) ↔
      (text ≠ [] ∧ text <+: c :: rest) ∧ (firstRule? source pos = some (some kind, text) ∨
        firstRule? source pos = none ∧ kind = .error ∧ text.length = 1) := by
  have by_rule : lexemeAt c rest = (firstRule? source pos).getD (some .error, [c]) := by
    rw [firstRule?_eq, h, lexemeAt]
  constructor
  · intro lexeme
    refine ⟨lexeme_spec lexeme, ?_⟩
    rw [lexeme] at by_rule
    cases first : firstRule? source pos with
    | none =>
      rw [first] at by_rule
      cases by_rule
      exact .inr ⟨rfl, rfl, rfl⟩
    | some found =>
      rw [first, Option.getD_some] at by_rule
      exact .inl (congrArg some by_rule.symm)
  · rintro ⟨⟨-, front⟩, first | ⟨first, rfl, single⟩⟩
    · rw [by_rule, first, Option.getD_some]
    · obtain ⟨d, rfl⟩ := List.length_eq_one_iff.1 single
      rw [by_rule, first, (List.cons_prefix_cons.1 front).1, Option.getD_none]

end

namespace Tokenizes

variable {source : Text} {start : Nat} {tokens : List Token}

/-! ## One step -/

/-- Where the program is over, there are no tokens. -/
theorem iff_of_nil (h : source.drop start = []) : Tokenizes source start tokens ↔ tokens = [] := by
  have past := List.drop_eq_nil_iff.1 h
  constructor
  · intro tokenizes
    rw [List.eq_nil_iff_forall_not_mem]
    intro token mem
    obtain ⟨ne, front⟩ := tokenizes.slice token mem
    have late := Nat.le_trans past (tokenizes.le_pos token mem)
    rw [List.drop_eq_nil_of_le late, List.prefix_nil] at front
    exact ne front
  · rintro rfl
    refine ⟨.nil, nofun, nofun, fun i c late found _ => ?_, nofun⟩
    have lt := (List.getElem?_eq_some_iff.1 found).1
    omega

/-- A gap character is passed over. -/
theorem iff_of_gap {c : Char} {rest : Text} (h : source.drop start = c :: rest)
    (hc : isGap c = true) :
    Tokenizes source start tokens ↔ Tokenizes source (start + 1) tokens := by
  constructor
  · intro tokenizes
    refine ⟨tokenizes.ordered, fun token mem => ?_, tokenizes.slice,
      fun i d late => tokenizes.gap i d (Nat.le_of_succ_le late), tokenizes.rule⟩
    refine Nat.lt_of_le_of_ne (tokenizes.le_pos token mem) ?_
    rintro rfl
    -- The lexeme at a gap character is a gap and no token.
    have lexeme := (lexemeAt_eq_iff h).2 ⟨h ▸ tokenizes.slice token mem, tokenizes.rule token mem⟩
    rw [lexemeAt_gap hc] at lexeme
    cases lexeme
  · intro tokenizes
    refine ⟨tokenizes.ordered, fun token mem => Nat.le_of_succ_le (tokenizes.le_pos token mem),
      tokenizes.slice, fun i d late found => ?_, tokenizes.rule⟩
    rcases Nat.eq_or_lt_of_le late with rfl | late
    · rw [← List.head?_drop, h] at found
      cases found
      exact fun _ => hc
    · exact tokenizes.gap i d late found

/-- The first token stands at the first character, if that is in no gap. -/
theorem exists_cons_of_not_gap (tokenizes : Tokenizes source start tokens) {c : Char} {rest : Text}
    (h : source.drop start = c :: rest) (hc : isGap c = false) :
    ∃ token later, tokens = token :: later ∧ token.pos = start := by
  have found : source[start]? = some c := by
    rw [← List.head?_drop, h]
    rfl
  have covered : ∃ token ∈ tokens, token.pos ≤ start ∧ start < token.pos + token.text.length := by
    by_contra uncovered
    have gap := tokenizes.gap start c (Nat.le_refl _) found
      fun token mem covers => uncovered ⟨token, mem, covers⟩
    rw [hc] at gap
    cases gap
  obtain ⟨token, mem, le, -⟩ := covered
  obtain ⟨first, later, rfl⟩ := List.exists_cons_of_ne_nil (List.ne_nil_of_mem mem)
  refine ⟨first, later, rfl, Nat.le_antisymm ?_ (tokenizes.le_pos first List.mem_cons_self)⟩
  rcases List.mem_cons.1 mem with rfl | mem
  · exact le
  · have before := List.rel_of_pairwise_cons tokenizes.ordered mem
    omega

/-- The tokens behind the first one. -/
theorem tail {token : Token} {later : List Token}
    (tokenizes : Tokenizes source start (token :: later)) :
    Tokenizes source (token.pos + token.text.length) later := by
  obtain ⟨after, ordered⟩ := List.pairwise_cons.1 tokenizes.ordered
  have le := tokenizes.le_pos token List.mem_cons_self
  refine ⟨ordered, after, (List.forall_mem_cons.1 tokenizes.slice).2,
    fun i c late found uncovered => ?_, (List.forall_mem_cons.1 tokenizes.rule).2⟩
  exact tokenizes.gap i c (by omega) found (List.forall_mem_cons.2 ⟨by omega, uncovered⟩)

/-- A token, and the tokens behind it. -/
theorem cons_iff {kind : Kind} {text : Text} {later : List Token} :
    Tokenizes source start (⟨kind, text, start⟩ :: later) ↔
      (text ≠ [] ∧ text <+: source.drop start) ∧
        (firstRule? source start = some (some kind, text) ∨
          firstRule? source start = none ∧ kind = .error ∧ text.length = 1) ∧
        Tokenizes source (start + text.length) later := by
  constructor
  · intro tokenizes
    exact ⟨tokenizes.slice _ List.mem_cons_self, tokenizes.rule _ List.mem_cons_self,
      tokenizes.tail⟩
  · rintro ⟨slice, rule, tokenizes⟩
    refine ⟨List.pairwise_cons.2 ⟨tokenizes.le_pos, tokenizes.ordered⟩,
      List.forall_mem_cons.2 ⟨Nat.le_refl _, fun other mem => ?_⟩,
      List.forall_mem_cons.2 ⟨slice, tokenizes.slice⟩, fun i c late found uncovered => ?_,
      List.forall_mem_cons.2 ⟨rule, tokenizes.rule⟩⟩
    · have after := tokenizes.le_pos other mem
      omega
    · obtain ⟨outside, uncovered⟩ := List.forall_mem_cons.1 uncovered
      have behind : start + text.length ≤ i := by
        by_contra lt
        exact outside ⟨late, Nat.lt_of_not_le lt⟩
      exact tokenizes.gap i c behind found uncovered

/-- The lexeme at a character that is in no gap is the first token. -/
theorem iff_of_lexemeAt {c : Char} {rest : Text} (h : source.drop start = c :: rest)
    (hc : isGap c = false) {kind : Kind} {text : Text}
    (lexeme : lexemeAt c rest = (some kind, text)) :
    Tokenizes source start tokens ↔
      ∃ later, tokens = ⟨kind, text, start⟩ :: later ∧
        Tokenizes source (start + text.length) later := by
  constructor
  · intro tokenizes
    obtain ⟨⟨kind', text', pos⟩, later, rfl, rfl⟩ := tokenizes.exists_cons_of_not_gap h hc
    obtain ⟨slice, rule, tokenizes⟩ := cons_iff.1 tokenizes
    have same := (lexemeAt_eq_iff h).2 ⟨h ▸ slice, rule⟩
    rw [lexeme] at same
    cases same
    exact ⟨later, rfl, tokenizes⟩
  · rintro ⟨later, rfl, tokenizes⟩
    obtain ⟨slice, rule⟩ := (lexemeAt_eq_iff h).1 lexeme
    rw [cons_iff, h]
    exact ⟨slice, rule, tokenizes⟩

end Tokenizes

/-! ## The whole program -/

/-- There is one way to cut a program into tokens from a position on, and scanning finds it. -/
theorem tokenizes_iff (source : Text) (start : Nat) (tokens : List Token) :
    Tokenizes source start tokens ↔ tokens = scanFrom 0 start (source.drop start) := by
  -- Each step leaves less of the program, be it a gap character or a token.
  induction left : source.length - start using Nat.strongRecOn generalizing start tokens with
  | ind left ih =>
    cases h : source.drop start with
    | nil => rw [Tokenizes.iff_of_nil h, scanFrom]
    | cons c rest =>
      have lt : start < source.length := by
        by_contra past
        rw [List.drop_eq_nil_of_le (Nat.le_of_not_lt past)] at h
        cases h
      cases hc : isGap c with
      | true =>
        have behind : source.drop (start + 1) = rest := by rw [← List.drop_drop, h, List.drop_one,
          List.tail_cons]
        rw [Tokenizes.iff_of_gap h hc, scanFrom_gap hc, ih _ (by omega) _ _ rfl, behind]
      | false =>
        obtain ⟨kind, text, lexeme⟩ := lexemeAt_of_not_gap hc rest
        have pos := List.length_pos_iff.2 (lexeme_spec lexeme).1
        have ih (later : List Token) :=
          ih (source.length - (start + text.length)) (by omega) (start + text.length) later rfl
        rw [Tokenizes.iff_of_lexemeAt h hc lexeme, scanFrom_token lexeme, ← h, List.drop_drop]
        simp only [ih]
        constructor
        · rintro ⟨later, rfl, rfl⟩
          rfl
        · rintro rfl
          exact ⟨_, rfl, rfl⟩

theorem tokenizes_scan (source : Text) : Tokenizes source 0 (scan source) :=
  (tokenizes_iff source 0 _).2 rfl

/-- The texts of tokens, and what stands in the program between them, before them and after them. -/
def rejoin (source : Text) : (pos : Nat) → List Token → Text
  | pos, [] => source.drop pos
  | pos, token :: tokens =>
    (source.drop pos).take (token.pos - pos) ++ token.text ++
      rejoin source (token.pos + token.text.length) tokens

/-- Nothing of the program is lost between its tokens. -/
theorem Tokenizes.rejoin_eq {source : Text} {start : Nat} {tokens : List Token}
    (tokenizes : Tokenizes source start tokens) :
    rejoin source start tokens = source.drop start := by
  induction tokens generalizing start with
  | nil => rfl
  | cons token later ih =>
    obtain ⟨behind, at_pos⟩ := (tokenizes.slice token List.mem_cons_self).2
    have le := tokenizes.le_pos token List.mem_cons_self
    have behind_eq : source.drop (token.pos + token.text.length) = behind := by
      rw [← List.drop_drop, ← at_pos, List.drop_left]
    calc rejoin source start (token :: later)
      _ = (source.drop start).take (token.pos - start) ++ (token.text ++ behind) := by
          rw [rejoin, ih tokenizes.tail, behind_eq, List.append_assoc]
      _ = (source.drop start).take (token.pos - start) ++
            (source.drop start).drop (token.pos - start) := by
          rw [at_pos, List.drop_drop, Nat.add_sub_cancel' le]
      _ = source.drop start := List.take_append_drop _ _

/-- No rule makes an error, and what is whitespace is a gap and no token. -/
theorem kind_of_firstRule? {source text : Text} {pos : Nat} {kind : Kind}
    (h : firstRule? source pos = some (some kind, text)) : kind ≠ .error ∧ kind ≠ .whitespace := by
  have kinds : ∀ rule ∈ rules, rule.kind ≠ some .error ∧ rule.kind ≠ some .whitespace := by
    simp [rules]
  rw [firstRule?_eq] at h
  obtain ⟨rule, mem, taken⟩ := List.exists_of_findSome?_eq_some h
  have some_kind : rule.kind = some kind := (Rule.kind_of_lexeme? taken).symm
  obtain ⟨not_error, not_whitespace⟩ := kinds rule mem
  rw [some_kind] at not_error not_whitespace
  exact ⟨fun error => not_error (congrArg some error),
    fun whitespace => not_whitespace (congrArg some whitespace)⟩

/-- Whitespace is passed over: no token of a program is of that kind. -/
theorem kind_ne_whitespace_of_mem_scan {source : Text} {token : Token} (h : token ∈ scan source) :
    token.kind ≠ .whitespace := by
  have tokenizes : Tokenizes source 0 (scan source) := (tokenizes_iff source 0 _).2 rfl
  rcases tokenizes.rule token h with first | ⟨-, error, -⟩
  · exact (kind_of_firstRule? first).2
  · rw [error]
    nofun

/-- The tokens of a program are the only list of tokens that stand in it one after the other, with
nothing but gaps between them, and that are each what the first rule that matches there says; those
of the kind `error` are exactly those where no rule matches. Their texts and the gaps between them
give back the program. -/
theorem scan_partitions (source : Text) :
    (∀ tokens, Tokenizes source 0 tokens ↔ tokens = scan source) ∧
      (∀ token ∈ scan source, token.kind = .error ↔ firstRule? source token.pos = none) ∧
      rejoin source 0 (scan source) = source := by
  have tokenizes : Tokenizes source 0 (scan source) := (tokenizes_iff source 0 _).2 rfl
  refine ⟨tokenizes_iff source 0, fun token mem => ?_, tokenizes.rejoin_eq⟩
  rcases tokenizes.rule token mem with first | ⟨first, error, -⟩
  · constructor
    · exact fun error => absurd error (kind_of_firstRule? first).1
    · intro none
      rw [none] at first
      cases first
  · exact iff_of_true error first

/-- A sign belongs to the number behind it, and a quote that is not closed is an error, since no
rule matches there. -/
theorem scan_partitions_of_open_quote :
    Tokenizes "5-2 \"x" 0
        [⟨.number, "5", 0⟩, ⟨.number, "-2", 1⟩, ⟨.error, "\"", 4⟩, ⟨.ident, "x", 5⟩] ∧
      firstRule? "5-2 \"x" 4 = none := by
  obtain ⟨unique, errors, -⟩ := scan_partitions "5-2 \"x"
  have scanned : scan "5-2 \"x" =
      [⟨.number, "5", 0⟩, ⟨.number, "-2", 1⟩, ⟨.error, "\"", 4⟩, ⟨.ident, "x", 5⟩] := by
    decide
  have mem : (⟨.error, "\"", 4⟩ : Token) ∈ scan "5-2 \"x" := by
    rw [scanned]
    simp
  exact ⟨(unique _).2 scanned.symm, (errors _ mem).1 rfl⟩

end RangeCalc.Token
