import Mathlib.Data.List.Forall2
import RangeCalc.Proofs.Token.Lexeme
import RangeCalc.Proofs.Token.Pattern

/-!
# The patterns of the rules

Every rule of the scanner takes from the front of a text what a pattern matches there. The table
below says which, in the order of the rules. The patterns overlap, and some of them may match in
several ways; that the rules find the way that is tried first is shown rule by rule.

* `Pattern.table`: the patterns;
* `Pattern.takes_decimal`, `Pattern.takes_string` and others: the single rules;
* `firstRule?_eq`: the first pattern that matches decides what the scanner takes.
-/

namespace RangeCalc.Token

namespace Pattern

/-! ## The table -/

/-- Whether a character lies in one of some closed ranges. -/
def within (ranges : List (Char × Char)) (c : Char) : Bool :=
  ranges.any fun (low, high) => low ≤ c && c ≤ high

/-- Whether a character is none of the given ones. -/
def noneOf (chars : Text) (c : Char) : Bool := !chars.contains c

/-- A run of the characters that separate tokens. -/
def gap : Pattern := plus (char fun c => (" \t\r\n" : Text).contains c)

/-- A word that ends where it ends. -/
def keyword (word : Text) : Pattern := seq (literal word) boundary

/-- A decimal digit. -/
def digit : Pattern := char isDigit

/-- A number with a point. -/
def decimal : Pattern :=
  alt (seq (opt (one '-')) (seq (plus digit) (seq (one '.') (star digit))))
    (seq (star digit) (seq (one '.') (plus digit)))

/-- A number without a point. -/
def integer : Pattern := seq (opt (one '-')) (plus digit)

/-- A name. -/
def name : Pattern :=
  seq (char (within [('a', 'z'), ('A', 'Z'), ('_', '_')]))
    (star (char (within [('a', 'z'), ('A', 'Z'), ('0', '9'), ('_', '_')])))

/-- A character of a string, or a backslash and a character that is no line feed. -/
def stringPart : Pattern :=
  alt (char (noneOf ['\\', '"'])) (seq (one '\\') (char (noneOf ['\n'])))

/-- A string with its quotes. -/
def string : Pattern := seq (one '"') (seq (star stringPart) (one '"'))

/-- The kinds of tokens, and `none` for gaps, with their patterns, in the order in which they are
tried. -/
def table : List (Option Kind × Pattern) := [
  (none, gap),
  (some .var, keyword "var"),
  (some .out, keyword "out"),
  (some .print, keyword "print"),
  (some .map, keyword "map"),
  (some .reduce, keyword "reduce"),
  (some .arrow, literal "->"),
  (some .assign, literal "="),
  (some .number, decimal),
  (some .number, integer),
  (some .ident, name),
  (some .string, string),
  (some .plus, literal "+"),
  (some .minus, literal "-"),
  (some .star, literal "*"),
  (some .slash, literal "/"),
  (some .caret, literal "^"),
  (some .lpar, literal "("),
  (some .rpar, literal ")"),
  (some .lbrace, literal "\x7b"),
  (some .rbrace, literal "\x7d"),
  (some .comma, literal ",")]

/-! ## Fixed texts and keywords -/

/-- A fixed text matches in one way at most. -/
theorem ends_literal (word : Text) (c : Cursor) :
    (literal word).ends c = if word <+: c.after then [c.advance word.length] else [] := by
  induction word generalizing c with
  | nil => simp [literal, ends]
  | cons x word ih =>
    obtain ⟨before, after⟩ := c
    cases after with
    | nil => simp [literal, ends, one]
    | cons y after =>
      by_cases eq : x = y
      · subst eq
        simp [literal, ends, one, ih]
      · simp [literal, ends, one, eq, Ne.symm eq]

theorem takes_literal {word : Text} (ne : word ≠ []) : (literal word).Takes (takeFixed word) := by
  intro c
  rw [last?, ends_literal, takeFixed]
  by_cases front : word <+: c.after
  · rw [if_pos front, if_pos (List.isPrefixOf_iff_prefix.2 front), if_neg ne]
    rfl
  · rw [if_neg front, if_neg (mt List.isPrefixOf_iff_prefix.1 front)]
    rfl

/-- Behind a word, a boundary is where no word character follows. -/
theorem atBoundary_advance {word : Text} (ne : word ≠ [])
    (isWord_of_mem : ∀ d ∈ word, isWord d = true) {c : Cursor} (front : word <+: c.after) :
    (c.advance word.length).atBoundary = !((c.after.drop word.length).head?.any isWord) := by
  have last : ((c.advance word.length).before).head?.any isWord = true := by
    rw [Cursor.advance, ← List.prefix_iff_eq_take.1 front, List.head?_append, List.head?_reverse,
      List.getLast?_eq_some_getLast ne]
    exact isWord_of_mem _ (List.getLast_mem ne)
  rw [Cursor.atBoundary, last, Bool.true_bne]
  rfl

theorem takes_keyword {word : Text} (ne : word ≠ []) (isWord_of_mem : ∀ d ∈ word, isWord d = true) :
    (keyword word).Takes (takeKeyword word) := by
  intro c
  rw [keyword, takeKeyword]
  by_cases front : word <+: c.after
  · rw [last?_seq_of_ends (by rw [ends_literal, if_pos front]), last?, ends,
      atBoundary_advance ne isWord_of_mem front, List.isPrefixOf_iff_prefix.2 front, Bool.true_and]
    cases (c.after.drop word.length).head?.any isWord with
    | true => rfl
    | false => simp [ne]
  · rw [last?_seq_of_none (by rw [ends_literal, if_neg front]),
      Bool.eq_false_iff.2 (mt List.isPrefixOf_iff_prefix.1 front)]
    rfl

/-! ## Runs of characters -/

theorem takes_plus_char (p : Char → Bool) : (plus (char p)).Takes (·.takeWhile p) := by
  rintro ⟨before, after⟩
  cases after with
  | nil => rfl
  | cons x after =>
    cases hx : p x with
    | true =>
      rw [plus, last?_seq_of_ends (by rw [ends_char_cons, hx]; rfl), last?_star_char]
      simp [hx]
    | false =>
      rw [plus, last?_seq_of_none (by rw [ends_char_cons, hx]; rfl)]
      simp [hx]

theorem takes_gap : gap.Takes takeGap := by
  have same : (fun c => (" \t\r\n" : Text).contains c) = isGap := by
    funext c
    rw [Bool.eq_iff_iff]
    simp [isGap, or_assoc]
  rw [gap, same]
  exact takes_plus_char isGap

/-- A run of characters of a class, and then something that does not begin with one of them. -/
theorem last?_plus_char_seq {p : Char → Bool} {b : Pattern}
    (blocked : ∀ before x after, p x = true → b.last? ⟨before, x :: after⟩ = none) (c : Cursor) :
    (seq (plus (char p)) b).last? c =
      if c.after.takeWhile p = [] then none
      else b.last? (c.advance (c.after.takeWhile p).length) := by
  obtain ⟨before, after⟩ := c
  rw [plus, last?_seq_assoc]
  cases after with
  | nil => rfl
  | cons x after =>
    cases hx : p x with
    | true =>
      rw [last?_seq_of_ends (by rw [ends_char_cons, hx]; rfl), last?_star_char_seq blocked]
      simp [hx]
    | false =>
      rw [last?_seq_of_none (by rw [ends_char_cons, hx]; rfl)]
      simp [hx]

theorem within_nameStart : within [('a', 'z'), ('A', 'Z'), ('_', '_')] = isNameStart := by
  funext c
  have start : isNameStart c =
      (decide (c.val ≥ 'A'.val ∧ c.val ≤ 'Z'.val) ||
        decide (c.val ≥ 'a'.val) && decide (c.val ≤ 'z'.val) || c == '_') := rfl
  rw [start, Bool.eq_iff_iff]
  simp only [within, List.any_cons, List.any_nil, Bool.or_eq_true, Bool.and_eq_true,
    decide_eq_true_eq, beq_iff_eq, Bool.or_false, Char.le_def, Char.ext_iff,
    UInt32.le_antisymm_iff, ge_iff_le]
  grind

theorem within_nameRest :
    within [('a', 'z'), ('A', 'Z'), ('0', '9'), ('_', '_')] = isNameRest := by
  funext c
  have rest : isNameRest c =
      (decide (c.val ≥ 'A'.val ∧ c.val ≤ 'Z'.val) ||
        decide (c.val ≥ 'a'.val) && decide (c.val ≤ 'z'.val) ||
        decide (c.val ≥ '0'.val) && decide (c.val ≤ '9'.val) || c == '_') := rfl
  rw [rest, Bool.eq_iff_iff]
  simp only [within, List.any_cons, List.any_nil, Bool.or_eq_true, Bool.and_eq_true,
    decide_eq_true_eq, beq_iff_eq, Bool.or_false, Char.le_def, Char.ext_iff,
    UInt32.le_antisymm_iff, ge_iff_le]
  grind

theorem takes_name : name.Takes takeName := by
  rw [name, within_nameStart, within_nameRest]
  rintro ⟨before, after⟩
  cases after with
  | nil => rfl
  | cons x after =>
    cases hx : isNameStart x with
    | true =>
      rw [last?_seq_of_ends (by rw [ends_char_cons, hx]; rfl), last?_star_char]
      simp [takeName, hx]
    | false =>
      rw [last?_seq_of_none (by rw [ends_char_cons, hx]; rfl)]
      simp [takeName, hx]

/-! ## Numbers -/

section

variable {b : Pattern} {c : Cursor}

theorem last?_one_seq_cons (x : Char) (before after : Text) :
    (seq (one x) b).last? ⟨before, x :: after⟩ = b.last? ⟨x :: before, after⟩ := by
  refine last?_seq_of_ends ?_
  rw [one, ends_char_cons, beq_self_eq_true, if_pos rfl]

theorem last?_one_seq_of_ne {x : Char} (h : x ∉ c.after.head?) :
    (seq (one x) b).last? c = none := by
  refine last?_seq_of_none ?_
  obtain ⟨before, after⟩ := c
  cases after with
  | nil => rfl
  | cons y after =>
    rw [one, ends_char_cons, if_neg]
    simpa using h

/-- A point is no digit, so a run of digits does not stop in front of one to find a point. -/
theorem last?_point_seq_of_digit (before : Text) (x : Char) (after : Text) (h : isDigit x = true) :
    (seq (one '.') b).last? ⟨before, x :: after⟩ = none := by
  refine last?_one_seq_of_ne ?_
  rintro ⟨⟩
  exact absurd h (by decide)

/-- A sign in front, which is tried first if it is there. -/
theorem last?_sign_seq_cons (before after : Text) :
    (seq (opt (one '-')) b).last? ⟨before, '-' :: after⟩ =
      (b.last? ⟨'-' :: before, after⟩).or (b.last? ⟨before, '-' :: after⟩) := by
  have ends : (opt (one '-')).ends ⟨before, '-' :: after⟩ =
      [⟨'-' :: before, after⟩, ⟨before, '-' :: after⟩] := rfl
  rw [last?_seq, ends, List.findSome?_cons, List.findSome?_singleton]
  cases b.last? ⟨'-' :: before, after⟩ <;> rfl

theorem last?_sign_seq_of_ne (h : '-' ∉ c.after.head?) :
    (seq (opt (one '-')) b).last? c = b.last? c := by
  obtain ⟨before, after⟩ := c
  cases after with
  | nil => simp [last?_seq, opt, ends, one]
  | cons x after =>
    have ne : ¬x = '-' := by simpa using h
    simp [last?_seq, opt, ends, one, ne]

end

/-- Without a sign, an integer is a run of digits. -/
theorem takeInteger_of_ne {text : Text} (h : '-' ∉ text.head?) :
    takeInteger text = text.takeWhile isDigit := by
  rw [takeInteger.eq_def]
  split
  · exact absurd rfl h
  · rfl

theorem takes_integer : integer.Takes takeInteger := by
  have digits := takes_plus_char isDigit
  rintro ⟨before, after⟩
  by_cases sign : '-' ∈ after.head?
  · obtain ⟨rest, rfl⟩ := List.head?_eq_some_iff.1 sign
    have none : (plus digit).last? ⟨before, '-' :: rest⟩ = none := digits _
    rw [integer, last?_sign_seq_cons, none, Option.or_none, digit, digits]
    simp only [takeInteger]
    cases rest.takeWhile isDigit with
    | nil => rfl
    | cons d more => simp
  · rw [integer, last?_sign_seq_of_ne sign, takeInteger_of_ne sign]
    exact digits _

/-- Without a point behind its integer part, a text starts with no number with a point. -/
theorem takeDecimal_of_no_point {text : Text}
    (h : '.' ∉ (text.drop (takeInteger text).length).head?) : takeDecimal text = [] := by
  rw [takeDecimal]
  split
  · rename_i rest behind
    exact absurd (by rw [behind]; rfl) h
  · rfl

theorem takeDecimal_of_point {text rest : Text}
    (h : text.drop (takeInteger text).length = '.' :: rest) :
    takeDecimal text =
      if takeInteger text = [] ∧ rest.takeWhile isDigit = [] then []
      else takeInteger text ++ '.' :: rest.takeWhile isDigit := by
  rw [takeDecimal, h]
  simp

section

variable {c : Cursor} {rest : Text}

/-- The place behind the digits, if a point stands there. -/
theorem advance_of_point (h : c.after.drop (c.after.takeWhile isDigit).length = '.' :: rest) :
    ∃ before, c.advance (c.after.takeWhile isDigit).length = ⟨before, '.' :: rest⟩ :=
  ⟨_, congrArg (Cursor.mk _) h⟩

/-- The first form of a number with a point, behind its sign: digits, a point, and digits that may
be missing. -/
theorem last?_unsigned_of_point
    (h : c.after.drop (c.after.takeWhile isDigit).length = '.' :: rest) :
    (seq (plus digit) (seq (one '.') (star digit))).last? c =
      if c.after.takeWhile isDigit = [] then none
      else
        some (c.advance (c.after.takeWhile isDigit ++ '.' :: rest.takeWhile isDigit).length) := by
  obtain ⟨before, place⟩ := advance_of_point h
  rw [digit, last?_plus_char_seq last?_point_seq_of_digit, List.length_append,
    ← Cursor.advance_advance, place, last?_one_seq_cons, last?_star_char, List.length_cons,
    Cursor.advance_cons]

theorem last?_unsigned_of_no_point
    (h : '.' ∉ (c.after.drop (c.after.takeWhile isDigit).length).head?) :
    (seq (plus digit) (seq (one '.') (star digit))).last? c = none := by
  rw [digit, last?_plus_char_seq last?_point_seq_of_digit, last?_one_seq_of_ne h, ite_self]

/-- The second form of a number with a point: digits that may be missing, a point, and digits. -/
theorem last?_pointed_of_point
    (h : c.after.drop (c.after.takeWhile isDigit).length = '.' :: rest) :
    (seq (star digit) (seq (one '.') (plus digit))).last? c =
      if rest.takeWhile isDigit = [] then none
      else
        some (c.advance (c.after.takeWhile isDigit ++ '.' :: rest.takeWhile isDigit).length) := by
  obtain ⟨before, place⟩ := advance_of_point h
  rw [digit, last?_star_char_seq last?_point_seq_of_digit, List.length_append,
    ← Cursor.advance_advance, place, last?_one_seq_cons, takes_plus_char, List.length_cons,
    Cursor.advance_cons]

theorem last?_pointed_of_no_point
    (h : '.' ∉ (c.after.drop (c.after.takeWhile isDigit).length).head?) :
    (seq (star digit) (seq (one '.') (plus digit))).last? c = none := by
  rw [digit, last?_star_char_seq last?_point_seq_of_digit, last?_one_seq_of_ne h]

end

/-- With a sign in front, only the first form can match, and it needs digits behind the sign. -/
theorem last?_decimal_cons (before rest : Text) :
    decimal.last? ⟨before, '-' :: rest⟩ =
      if takeDecimal ('-' :: rest) = [] then none
      else some (Cursor.advance ⟨before, '-' :: rest⟩ (takeDecimal ('-' :: rest)).length) := by
  have no_point : '.' ∉ (('-' :: rest).drop 0).head? := by rintro ⟨⟩
  rw [decimal, last?_alt, last?_sign_seq_cons,
    last?_unsigned_of_no_point (c := ⟨before, '-' :: rest⟩) no_point,
    last?_pointed_of_no_point (c := ⟨before, '-' :: rest⟩) no_point, Option.or_none, Option.or_none]
  by_cases none : rest.takeWhile isDigit = []
  · have whole : takeInteger ('-' :: rest) = [] := by rw [takeInteger, none]
    rw [digit, last?_plus_char_seq last?_point_seq_of_digit, if_pos none,
      takeDecimal_of_no_point (by rwa [whole])]
    rfl
  · have whole : takeInteger ('-' :: rest) = '-' :: rest.takeWhile isDigit := by
      rw [takeInteger]
      split
      · contradiction
      · rfl
    by_cases point : '.' ∈ (rest.drop (rest.takeWhile isDigit).length).head?
    · obtain ⟨tail, behind⟩ := List.head?_eq_some_iff.1 point
      rw [last?_unsigned_of_point behind, takeDecimal_of_point (by rw [whole]; exact behind), whole]
      simp [none]
    · rw [last?_unsigned_of_no_point point, takeDecimal_of_no_point (by rw [whole]; exact point)]
      rfl

theorem takes_decimal : decimal.Takes takeDecimal := by
  rintro ⟨before, after⟩
  by_cases sign : '-' ∈ after.head?
  · obtain ⟨rest, rfl⟩ := List.head?_eq_some_iff.1 sign
    exact last?_decimal_cons before rest
  · have whole := takeInteger_of_ne sign
    rw [decimal, last?_alt, last?_sign_seq_of_ne sign]
    by_cases point : '.' ∈ (after.drop (after.takeWhile isDigit).length).head?
    · obtain ⟨tail, behind⟩ := List.head?_eq_some_iff.1 point
      rw [last?_unsigned_of_point behind, last?_pointed_of_point behind,
        takeDecimal_of_point (by rwa [whole]), whole]
      -- The second form is tried only if there are no digits in front of the point.
      by_cases no_whole : after.takeWhile isDigit = []
      · by_cases no_fraction : tail.takeWhile isDigit = []
        · simp [no_whole, no_fraction]
        · simp [no_whole, no_fraction]
      · simp [no_whole]
    · rw [last?_unsigned_of_no_point point, last?_pointed_of_no_point point,
        takeDecimal_of_no_point (by rwa [whole])]
      rfl

/-! ## Strings -/

/-- The parts of a string and its closing quote. -/
theorem last?_stringParts (before after : Text) :
    (seq (star stringPart) (one '"')).last? ⟨before, after⟩ =
      (stringRest? after).map fun closed => Cursor.advance ⟨before, after⟩ closed.length := by
  fun_induction stringRest? after generalizing before with
  | case1 => exact last?_star_seq_of_none rfl
  | case2 rest => exact last?_star_seq_of_none rfl
  | case3 => exact last?_star_seq_of_none rfl
  | case4 rest => exact last?_star_seq_of_none rfl
  | case5 c rest hc ih =>
    have escaped : stringPart.ends ⟨before, '\\' :: c :: rest⟩ =
        [⟨c :: '\\' :: before, rest⟩] := by
      simp [stringPart, ends, one, noneOf, hc]
    rw [last?_star_seq_of_ends escaped (Nat.lt_add_of_pos_right Nat.two_pos) rfl, ih,
      Option.map_map]
    congr 1
    funext closed
    simp
  | case6 c rest no_quote alone no_escape ih =>
    have plain : c ≠ '\\' ∧ c ≠ '"' := by
      refine ⟨fun backslash => ?_, no_quote⟩
      cases rest with
      | nil => exact alone backslash rfl
      | cons d rest => exact no_escape d rest backslash rfl
    have ordinary : stringPart.ends ⟨before, c :: rest⟩ = [⟨c :: before, rest⟩] := by
      simp [stringPart, ends, one, noneOf, plain]
    have no_end : (one '"').last? ⟨before, c :: rest⟩ = none := by
      simp [last?, one, ends, plain]
    rw [last?_star_seq_of_ends ordinary (Nat.lt_succ_self _) no_end, ih, Option.map_map]
    congr 1
    funext closed
    simp

theorem takeString_of_ne {text : Text} (h : '"' ∉ text.head?) : takeString text = [] := by
  rw [takeString.eq_def]
  split
  · simp at h
  · rfl

theorem takes_string : string.Takes takeString := by
  rintro ⟨before, after⟩
  by_cases quote : '"' ∈ after.head?
  · obtain ⟨rest, rfl⟩ := List.head?_eq_some_iff.1 quote
    rw [string, last?_one_seq_cons, last?_stringParts, takeString]
    cases stringRest? rest with
    | none => rfl
    | some closed => simp
  · rw [string, last?_one_seq_of_ne quote, takeString_of_ne quote]
    rfl

/-! ## The first rule that matches -/

/-- Every rule of the scanner takes what its pattern matches. -/
theorem takes_table :
    List.Forall₂ (fun entry rule => entry.1 = rule.kind ∧ entry.2.Takes rule.take) table rules := by
  have fixed {c : Char} {word : Text} : (literal (c :: word)).Takes (takeFixed (c :: word)) :=
    takes_literal (List.cons_ne_nil c word)
  have word {word : Text} (mem : word ∈ keywords) : (keyword word).Takes (takeKeyword word) := by
    refine takes_keyword ?_ fun d hd =>
      isWord_of_isNameRest (isNameRest_of_mem_keywords word mem d hd)
    rintro rfl
    exact absurd mem (by decide)
  simp only [table, rules, List.forall₂_cons, List.forall₂_nil_left_iff, true_and, and_true]
  exact ⟨takes_gap, word (by decide), word (by decide), word (by decide), word (by decide),
    word (by decide), fixed, fixed, takes_decimal, takes_integer, takes_name, takes_string, fixed,
    fixed, fixed, fixed, fixed, fixed, fixed, fixed, fixed, fixed⟩

end Pattern

/-- The first rule of the table whose pattern matches at a position of a text, and what it matches
there. -/
def firstRule? (source : Text) (pos : Nat) : Option (Option Kind × Text) :=
  Pattern.table.findSome? fun (kind, pattern) => (pattern.match? source pos).map (kind, ·)

/-- What a rule makes of the text from a position on is what its pattern matches there. -/
theorem Pattern.Takes.lexeme?_eq {pattern : Pattern} {rule : Rule} (h : pattern.Takes rule.take)
    (front : ∀ text, rule.take text <+: text) (source : Text) (pos : Nat) :
    rule.lexeme? (source.drop pos) = (pattern.match? source pos).map (rule.kind, ·) := by
  rw [h.match? front, Rule.lexeme?]
  cases rule.take (source.drop pos) with
  | nil => rfl
  | cons x lexeme => simp

theorem firstRule?_eq (source : Text) (pos : Nat) :
    firstRule? source pos = rules.findSome? (·.lexeme? (source.drop pos)) := by
  rw [firstRule?]
  have front : ∀ rule ∈ rules, ∀ text, rule.take text <+: text :=
    fun rule mem text => take_prefix_of_mem_rules mem text
  have takes := Pattern.takes_table
  -- The table and the rules are gone through side by side.
  generalize Pattern.table = entries, rules = rules at front takes ⊢
  induction takes with
  | nil => rfl
  | @cons entry rule entries rules takes _ ih =>
    obtain ⟨same, takes⟩ := takes
    rw [List.findSome?_cons, List.findSome?_cons, ih (List.forall_mem_cons.1 front).2,
      takes.lexeme?_eq (List.forall_mem_cons.1 front).1, ← same]

end RangeCalc.Token
