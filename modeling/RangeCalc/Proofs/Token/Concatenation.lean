import RangeCalc.Proofs.Token.Partition

/-!
# Tokens of texts put together

No rule takes a gap character, a string apart, and a string that is closed is not continued by what
follows it. So what follows a gap makes a difference to the text before it in one case only: a quote
that is a stray character there opens a string which ends behind the gap. A text that leaves no quote
open keeps its tokens when a gap and more text are put behind it, and the tokens of that text only
move to the right.

* `takeString_append_cons`: how a string may depend on what follows;
* `take_append_gap`, `lexemeAt_append_gap`: the rules and the lexeme at the front of a text, with a
  gap behind the text;
* `scanFrom_append_gap_or`, `scanFrom_add`: scanning up to the gap and behind it;
* `scan_append_or`: the tokens of two texts with a gap between them, or the string in the way;
* `scan_append_of_quotes_closed`: no string is in the way of a text that leaves no quote open.
-/

namespace RangeCalc.Token

/-- The token, with so many characters more before it. -/
def shift (count : Nat) (token : Token) : Token := { token with pos := token.pos + count }

/-! ## Rules in front of a gap -/

section Rules

variable {g : Char}

/-- A gap character is in no class that has none of the four. -/
theorem class_of_gap {p : Char → Bool} (none : [' ', '\t', '\r', '\n'].any p = false)
    (hg : isGap g = true) : p g = false := by
  refine Bool.eq_false_iff.2 fun inside => ?_
  rw [not_gap_of_class none inside] at hg
  cases hg

/-- A word does not reach to a character that is not in it. -/
theorem prefix_append_cons_iff {word : Text} (h : g ∉ word) (text more : Text) :
    word <+: text ++ g :: more ↔ word <+: text := by
  constructor
  · intro front
    rcases List.prefix_or_prefix_of_prefix front (List.prefix_append text (g :: more)) with
      front | ⟨others, rfl⟩
    · exact front
    · obtain front := (List.prefix_append_right_inj text).1 front
      cases others with
      | nil => exact (List.append_nil text).symm ▸ List.prefix_refl text
      | cons c others =>
        obtain ⟨rfl, -⟩ := List.cons_prefix_cons.1 front
        simp at h
  · intro front
    exact front.trans (List.prefix_append _ _)

theorem isPrefixOf_append_gap {word : Text} (hword : word.any isGap = false) (hg : isGap g = true)
    (text more : Text) : word.isPrefixOf (text ++ g :: more) = word.isPrefixOf text := by
  rw [Bool.eq_iff_iff, List.isPrefixOf_iff_prefix, List.isPrefixOf_iff_prefix]
  exact prefix_append_cons_iff (fun mem => List.any_eq_false.1 hword g mem hg) text more

/-- A run of characters stops at a gap. -/
theorem takeWhile_append_gap {p : Char → Bool} (none : [' ', '\t', '\r', '\n'].any p = false)
    (hg : isGap g = true) (text more : Text) :
    (text ++ g :: more).takeWhile p = text.takeWhile p := by
  rw [List.takeWhile_append]
  split
  · rename_i all
    have inside := List.takeWhile_prefix p |>.eq_of_length all
    rw [inside, List.takeWhile_cons_of_neg (by simp [class_of_gap none hg]), List.append_nil]
  · rfl

theorem takeFixed_append_gap {word : Text} (hword : word.any isGap = false) (hg : isGap g = true)
    (text more : Text) : takeFixed word (text ++ g :: more) = takeFixed word text := by
  rw [takeFixed, takeFixed, isPrefixOf_append_gap hword hg]

/-- A keyword may end at a gap as well as at the end of the text. -/
theorem takeKeyword_append_gap {word : Text} (hword : word.any isGap = false)
    (hg : isGap g = true) (text more : Text) :
    takeKeyword word (text ++ g :: more) = takeKeyword word text := by
  rw [takeKeyword, takeKeyword, isPrefixOf_append_gap hword hg]
  by_cases front : word.isPrefixOf text = true
  · obtain ⟨behind, rfl⟩ := List.isPrefixOf_iff_prefix.1 front
    rw [List.append_assoc, List.drop_left, List.drop_left]
    cases behind with
    | nil => simp [class_of_gap (p := isWord) rfl hg]
    | cons c behind => rfl
  · rw [Bool.not_eq_true] at front
    rw [front, Bool.false_and, Bool.false_and]

theorem takeInteger_append_gap (hg : isGap g = true) (text more : Text) :
    takeInteger (text ++ g :: more) = takeInteger text := by
  have digits := takeWhile_append_gap (p := isDigit) rfl hg
  have not_sign : g ≠ '-' := by
    rintro rfl
    cases hg
  cases text with
  | nil => exact takeInteger_of_not_digit not_sign (class_of_gap rfl hg) more
  | cons c text =>
    by_cases sign : c = '-'
    · subst sign
      rw [List.cons_append, takeInteger, takeInteger, digits]
    · have unsigned (rest : Text) : takeInteger (c :: rest) = (c :: rest).takeWhile isDigit := by
        rw [takeInteger]
        rintro _ ⟨⟩
        exact absurd rfl sign
      rw [List.cons_append, unsigned, unsigned, ← List.cons_append, digits]

theorem takeDecimal_append_gap (hg : isGap g = true) (text more : Text) :
    takeDecimal (text ++ g :: more) = takeDecimal text := by
  have not_point : g ≠ '.' := by
    rintro rfl
    cases hg
  have le := (takeInteger_isPrefix text).length_le
  rw [takeDecimal, takeDecimal, takeInteger_append_gap hg, List.drop_append_of_le_length le]
  -- Whether a point follows the integer is seen before the gap is reached.
  cases text.drop (takeInteger text).length with
  | nil =>
    rw [List.nil_append]
    split
    · rename_i point
      exact absurd (List.cons.inj point).1 not_point
    · rfl
  | cons c behind =>
    by_cases point : c = '.'
    · subst point
      simp only [List.cons_append, takeWhile_append_gap (p := isDigit) rfl hg]
    · rw [List.cons_append]
      split
      · rename_i eq
        exact absurd (List.cons.inj eq).1 point
      · split
        · rename_i eq
          exact absurd (List.cons.inj eq).1 point
        · rfl

theorem takeName_append_gap (hg : isGap g = true) (text more : Text) :
    takeName (text ++ g :: more) = takeName text := by
  cases text with
  | nil =>
    have not_start : isNameStart g = false := class_of_gap rfl hg
    show (if isNameStart g then g :: more.takeWhile isNameRest else []) = []
    rw [not_start, if_neg Bool.false_ne_true]
  | cons c text =>
    rw [List.cons_append, takeName, takeName, takeWhile_append_gap (p := isNameRest) rfl hg]

/-- What closes a string is not continued by what follows it. -/
theorem stringRest?_closed_append {text closed : Text} (h : stringRest? text = some closed)
    (more : Text) : stringRest? (closed ++ more) = some closed := by
  fun_induction stringRest? text generalizing closed with
  | case1 => cases h
  | case2 rest =>
    cases h
    rfl
  | case3 => cases h
  | case4 => cases h
  | case5 c rest hc ih =>
    obtain ⟨inner, hi, rfl⟩ := Option.map_eq_some_iff.1 h
    rw [List.cons_append, List.cons_append, stringRest?, if_neg hc, ih hi]
    rfl
  | case6 c rest not_quote not_last not_escape ih =>
    obtain ⟨inner, hi, rfl⟩ := Option.map_eq_some_iff.1 h
    have escaped : c ≠ '\\' := by
      rintro rfl
      cases rest with
      | nil => exact not_last rfl rfl
      | cons d rest => exact not_escape d rest rfl rfl
    rw [List.cons_append, stringRest?, ih hi]
    · rfl
    · exact not_quote
    · exact fun eq _ => escaped eq
    · exact fun _ _ eq _ => escaped eq

/-- A string is taken alike whatever follows it. -/
theorem takeString_taken_append {text : Text} (h : takeString text ≠ []) (more : Text) :
    takeString (takeString text ++ more) = takeString text := by
  cases text with
  | nil => exact absurd rfl h
  | cons c text =>
    by_cases quote : c = '"'
    · subst quote
      cases closed : stringRest? text with
      | none => simp [takeString, closed] at h
      | some closed' =>
        have taken : takeString ('"' :: text) = '"' :: closed' := by
          rw [takeString, closed, Option.map_some, Option.getD_some]
        rw [taken, List.cons_append, takeString, stringRest?_closed_append closed, Option.map_some,
          Option.getD_some]
    · exact absurd (Pattern.takeString_of_ne (by simpa using quote)) h

/-- A string that is closed is not continued. -/
theorem takeString_append {text : Text} (h : takeString text ≠ []) (more : Text) :
    takeString (text ++ more) = takeString text := by
  obtain ⟨rest, split⟩ := takeString_isPrefix text
  calc takeString (text ++ more)
    _ = takeString (takeString text ++ (rest ++ more)) := by rw [← List.append_assoc, split]
    _ = takeString text := takeString_taken_append h _

/-- More text behind a character changes a string at the front only if the string is left open
before the character and closed behind it. -/
theorem takeString_append_cons (g : Char) (text more : Text) :
    takeString (text ++ g :: more) = takeString text ∨
      takeString text = [] ∧ g ∈ takeString (text ++ g :: more) := by
  by_cases opened : takeString text = []
  · by_cases closed : g ∈ takeString (text ++ g :: more)
    · exact .inr ⟨opened, closed⟩
    · refine .inl ?_
      obtain ⟨rest, split⟩ :=
        (prefix_append_cons_iff closed text more).1 (takeString_isPrefix (text ++ g :: more))
      -- Without the character, the string would be closed before it.
      by_contra ne
      rw [opened] at ne
      have closed_before := takeString_taken_append ne rest
      rw [split, opened] at closed_before
      exact ne closed_before.symm
  · exact .inl (takeString_append opened _)

/-- No rule takes more from a text with a gap behind it, if the rule for strings does not. -/
theorem take_append_gap {c : Char} (hc : isGap c = false) (hg : isGap g = true) {text more : Text}
    (string : takeString (c :: text ++ g :: more) = takeString (c :: text)) :
    ∀ rule ∈ rules, rule.take (c :: text ++ g :: more) = rule.take (c :: text) := by
  refine forall_mem_rules ?_ (fun _ _ h => takeKeyword_append_gap h hg _ _)
    (fun _ _ h => takeFixed_append_gap h hg _ _) (takeDecimal_append_gap hg _ _)
    (takeInteger_append_gap hg _ _) (takeName_append_gap hg (c :: text) more) string
  show takeGap (c :: (text ++ g :: more)) = takeGap (c :: text)
  rw [takeGap_of_not_gap hc, takeGap_of_not_gap hc]

end Rules

/-! ## Scanning up to a gap -/

/-- A quote that opens a string without an end is a stray character. -/
theorem lexemeAt_open_quote {text : Text} (h : takeString ('"' :: text) = []) :
    lexemeAt '"' text = (some .error, ['"']) := by
  have string : Rule.lexeme? ⟨some .string, takeString⟩ ('"' :: text) = none := by
    simp only [Rule.lexeme?, h]
  have none : rules.findSome? (·.lexeme? ('"' :: text)) = none := by
    rw [List.findSome?_eq_none_iff]
    simp only [rules, List.forall_mem_cons]
    exact ⟨rfl, rfl, rfl, rfl, rfl, rfl, rfl, rfl, rfl, rfl, rfl, string, rfl, rfl, rfl, rfl, rfl,
      rfl, rfl, rfl, rfl, rfl, List.forall_mem_nil _⟩
  rw [lexemeAt, none, Option.getD_none]

/-- A quote that opens a string with an end starts that string. -/
theorem lexemeAt_closed_quote {text : Text} (h : takeString ('"' :: text) ≠ []) :
    lexemeAt '"' text = (some .string, takeString ('"' :: text)) := by
  obtain ⟨d, closed, taken⟩ := List.exists_cons_of_ne_nil h
  rw [taken]
  refine lexemeAt_of_rule 11 rfl ?_ taken
  simp only [rules, List.take, List.forall_mem_cons]
  exact ⟨rfl, rfl, rfl, rfl, rfl, rfl, rfl, rfl, rfl, rfl, rfl, List.forall_mem_nil _⟩

/-- What stands at the front of a text also does with a gap behind the text, if that holds for
strings. -/
theorem lexemeAt_append_gap {c g : Char} (hc : isGap c = false) (hg : isGap g = true)
    {text more : Text} (string : takeString (c :: text ++ g :: more) = takeString (c :: text)) :
    lexemeAt c (text ++ g :: more) = lexemeAt c text := by
  have same : ∀ rule ∈ rules,
      rule.lexeme? (c :: (text ++ g :: more)) = rule.lexeme? (c :: text) := by
    intro rule mem
    rw [Rule.lexeme?, Rule.lexeme?, ← List.cons_append, take_append_gap hc hg string rule mem]
  rw [lexemeAt, lexemeAt]
  congr 1
  generalize rules = table at same
  induction table with
  | nil => rfl
  | cons rule table ih =>
    obtain ⟨first, others⟩ := List.forall_mem_cons.1 same
    rw [List.findSome?_cons, List.findSome?_cons, first, ih others]

/-- A text is scanned as if the gap behind it were its end, unless it has a quote that opens a string
which ends behind the gap. -/
theorem scanFrom_append_gap_or {g : Char} (hg : isGap g = true) (more : Text) (pos : Nat)
    (text : Text) :
    scanFrom 0 pos (text ++ g :: more) =
        scanFrom 0 pos text ++ scanFrom 0 (pos + text.length) (g :: more) ∨
      (∃ token ∈ scanFrom 0 pos text, token.kind = .error ∧ token.text = ['"']) ∧
        ∃ token ∈ scanFrom 0 pos (text ++ g :: more), token.kind = .string ∧ g ∈ token.text := by
  -- Each step leaves less of the text, be it a gap character or a token.
  induction left : text.length using Nat.strongRecOn generalizing pos text with
  | ind left ih =>
    subst left
    cases text with
    | nil => exact .inl rfl
    | cons c text =>
      cases hc : isGap c with
      | true =>
        rw [List.cons_append, scanFrom_gap hc, scanFrom_gap hc, List.length_cons,
          Nat.add_comm text.length, ← Nat.add_assoc]
        exact ih _ (Nat.lt_succ_self _) (pos + 1) text rfl
      | false =>
        rcases takeString_append_cons g (c :: text) more with string | ⟨opened, closed⟩
        · obtain ⟨kind, lexeme, first⟩ := lexemeAt_of_not_gap hc text
          obtain ⟨ne, front⟩ := lexeme_spec first
          have le := front.length_le
          have some_char := List.length_pos_iff.2 ne
          have first' := (lexemeAt_append_gap hc hg string).trans first
          rw [List.cons_append, scanFrom_token first', scanFrom_token first, ← List.cons_append,
            List.drop_append_of_le_length le]
          rcases ih _ (by rw [List.length_drop]; omega) (pos + lexeme.length)
            ((c :: text).drop lexeme.length) rfl with split | ⟨⟨quote, hq, stray⟩, string, hs, across⟩
          · rw [split, List.length_drop, Nat.add_assoc, Nat.add_sub_cancel' le]
            exact .inl rfl
          · exact .inr ⟨⟨quote, List.mem_cons_of_mem _ hq, stray⟩, string,
              List.mem_cons_of_mem _ hs, across⟩
        · -- The string rule takes nothing but strings, so the text has a quote here.
          obtain rfl : c = '"' := by
            by_contra quote
            rw [List.cons_append, Pattern.takeString_of_ne (by simpa using quote)] at closed
            cases closed
          rw [List.cons_append] at closed ⊢
          have string := lexemeAt_closed_quote (List.ne_nil_of_mem closed)
          rw [scanFrom_token (lexemeAt_open_quote opened), scanFrom_token string]
          exact .inr ⟨⟨_, List.mem_cons_self, rfl, rfl⟩, _, List.mem_cons_self, rfl, closed⟩

/-- Gap characters are passed over. -/
theorem scanFrom_gaps {gap : Text} (h : ∀ c ∈ gap, isGap c = true) (pos : Nat) (rest : Text) :
    scanFrom 0 pos (gap ++ rest) = scanFrom 0 (pos + gap.length) rest := by
  induction gap generalizing pos with
  | nil => rfl
  | cons c gap ih =>
    obtain ⟨first, others⟩ := List.forall_mem_cons.1 h
    rw [List.cons_append, scanFrom_gap first, ih others, List.length_cons, Nat.add_assoc,
      Nat.add_comm 1]

/-- Where a text stands only says where its tokens are. -/
theorem scanFrom_add (count skip pos : Nat) (text : Text) :
    scanFrom skip (pos + count) text = (scanFrom skip pos text).map (shift count) := by
  fun_induction scanFrom skip pos text with
  | case1 => rw [scanFrom, List.map_nil]
  | case2 skip pos c rest ih => rw [scanFrom, ← ih, Nat.add_right_comm]
  | case3 pos c rest kind lexeme first ih =>
    rw [scanFrom, first, List.map_cons, ← ih, Nat.add_right_comm]
    rfl
  | case4 pos c rest lexeme first ih =>
    rw [scanFrom, first, ← ih, Nat.add_right_comm]

/-- Two texts with a gap between them are scanned one by one, unless a quote that is left open in the
first starts a string which contains a character of the gap. -/
theorem scan_append_or {gap : Text} (some_gap : gap ≠ []) (hgap : ∀ c ∈ gap, isGap c = true)
    (text text' : Text) :
    scan (text ++ gap ++ text') = scan text ++ (scan text').map (shift (text.length + gap.length)) ∨
      (∃ token ∈ scan text, token.kind = .error ∧ token.text = ['"']) ∧
        ∃ token ∈ scan (text ++ gap ++ text'), token.kind = .string ∧ ∃ c ∈ gap, c ∈ token.text := by
  obtain ⟨g, others, rfl⟩ := List.exists_cons_of_ne_nil some_gap
  obtain ⟨hg, -⟩ := List.forall_mem_cons.1 hgap
  rw [List.append_assoc, List.cons_append]
  rcases scanFrom_append_gap_or hg (others ++ text') 0 text with
    split | ⟨stray, token, mem, string, across⟩
  · refine .inl ?_
    rw [scan, split, ← List.cons_append, scanFrom_gaps hgap, scan, scan, ← scanFrom_add,
      Nat.zero_add, Nat.zero_add]
  · exact .inr ⟨stray, token, mem, string, g, List.mem_cons_self, across⟩

/-- The tokens of two texts with a gap between them, where the first has no stray characters. -/
theorem scan_append {text gap : Text} (h : ∀ token ∈ scan text, token.kind ≠ .error)
    (some_gap : gap ≠ []) (hgap : ∀ c ∈ gap, isGap c = true) (text' : Text) :
    scan (text ++ gap ++ text') = scan text ++ (scan text').map (shift (text ++ gap).length) := by
  rw [List.length_append]
  rcases scan_append_or some_gap hgap text text' with split | ⟨⟨token, mem, stray, -⟩, -⟩
  · exact split
  · exact absurd stray (h token mem)

/-- The tokens of two texts with a gap between them, where the first has no quote that is left open:
they are those of the first, and those of the second moved behind the gap. -/
theorem scan_append_of_quotes_closed {text gap : Text}
    (closed : ∀ token ∈ scan text, token.kind = .error → token.text ≠ ['"'])
    (some_gap : gap ≠ []) (hgap : ∀ c ∈ gap, isGap c = true) (text' : Text) :
    scan (text ++ gap ++ text') =
      scan text ++ (scan text').map (shift (text.length + gap.length)) := by
  rcases scan_append_or some_gap hgap text text' with split | ⟨⟨token, mem, stray, quote⟩, -⟩
  · exact split
  · exact absurd quote (closed token mem stray)

/-- A gap inside a string, a stray character that is no quote and a number that could go on are no
obstacle, nor is an open quote behind the gap. -/
theorem scan_append_of_quotes_closed_of_open_number :
    (∀ token ∈ scan "\"a b\" $ 5.", token.kind = .error → token.text ≠ ['"']) ∧
      scan ("\"a b\" $ 5." ++ "\r\n" ++ "5-2 \"") =
        [⟨.string, "\"a b\"", 0⟩, ⟨.error, "$", 6⟩, ⟨.number, "5.", 8⟩, ⟨.number, "5", 12⟩,
          ⟨.number, "-2", 13⟩, ⟨.error, "\"", 16⟩] := by
  have closed : ∀ token ∈ scan "\"a b\" $ 5.", token.kind = .error → token.text ≠ ['"'] := by
    decide
  refine ⟨closed, ?_⟩
  have hgap : ∀ c ∈ ("\r\n" : Text), isGap c = true := List.all_eq_true.1 rfl
  have split := scan_append_of_quotes_closed closed (by decide) hgap "5-2 \""
  exact split.trans (by decide)

/-- A quote that is left open may find its end behind the gap. -/
example : scan ("\"" ++ " " ++ "\"") = [⟨.string, "\" \"", 0⟩] := by decide

end RangeCalc.Token
