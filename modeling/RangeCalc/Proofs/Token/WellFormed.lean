import RangeCalc.Proofs.Token.Lexeme
import RangeCalc.Proofs.Program.Soundness

/-!
# What scanning says about its tokens

The kind of a token is that of the rule that made it, so it says what the text looks like: a sign has
one spelling, a string stands between quotes, and a number consists of digits, a sign and a point, in
such an order that it can be read. Parsing relies on that. And no token but a string has a gap
character in it.

* `Token.exists_rule_of_mem_scanFrom`: the rule behind a token;
* `Number.exists_read?_of_isInteger`, `Number.exists_read?_of_point`: what the rules for numbers take
  can be read;
* `Token.not_gap_of_mem_text`: which tokens are free of gap characters;
* `Token.wellFormed_of_mem_scanFrom`: tokens are well formed;
* `Token.text_of_operator?`: the token of an operator is spelled as that operator.
-/

namespace RangeCalc

/-! ## Reading numbers -/

namespace Text

/-- The blank characters, one by one. -/
def blanks : List Char :=
  blankRanges.flatMap fun (low, high) => (List.range' low (high + 1 - low)).map Char.ofNat

theorem mem_blanks {c : Char} (h : isBlank c = true) : c ∈ blanks := by
  obtain ⟨⟨low, high⟩, mem, within⟩ := List.any_eq_true.1 h
  simp only [Bool.and_eq_true, decide_eq_true_eq] at within
  refine List.mem_flatMap.2 ⟨_, mem, List.mem_map.2 ⟨c.toNat, ?_, Char.ofNat_toNat c⟩⟩
  rw [List.mem_range'_1]
  omega

/-- A class without blanks. -/
theorem not_isBlank_of_class {p : Char → Bool} (none : blanks.any p = false) {c : Char}
    (hc : p c = true) : isBlank c = false := by
  refine Bool.eq_false_iff.2 fun blank => ?_
  exact List.any_eq_false.1 none c (mem_blanks blank) hc

/-- A text without blanks is not trimmed. -/
theorem trim_eq_self {text : Text} (h : ∀ c ∈ text, isBlank c = false) : text.trim = text := by
  have keeps {text : Text} (h : ∀ c ∈ text, isBlank c = false) : text.dropWhile isBlank = text := by
    cases text with
    | nil => rfl
    | cons c rest => rw [List.dropWhile_cons_of_neg (by simp [h c List.mem_cons_self])]
  rw [trim, keeps h, keeps (fun c mem => h c (List.mem_reverse.1 mem)), List.reverse_reverse]

end Text

namespace Number

variable {digits rest : Text}

/-- A run of digits ends where neither a digit nor an underscore follows. -/
theorem moreDigits_append (h : ∀ d ∈ digits, isDigit d = true)
    (stops : ∀ c ∈ rest.head?, isDigit c = false ∧ c ≠ '_') :
    moreDigits (digits ++ rest) = (digits, rest) := by
  induction digits with
  | nil =>
    cases rest with
    | nil => rfl
    | cons c rest =>
      obtain ⟨not_digit, ne⟩ := stops c rfl
      rw [List.nil_append, moreDigits, if_neg (by simp [not_digit])]
      rintro d rest ⟨⟩
      exact absurd rfl ne
  | cons d digits ih =>
    obtain ⟨digit, digits⟩ := List.forall_mem_cons.1 h
    rw [List.cons_append, moreDigits, if_pos digit, ih digits]
    rintro e rest ⟨⟩
    exact absurd digit (by decide)

theorem takeDigits_append (h : ∀ d ∈ digits, isDigit d = true)
    (stops : ∀ c ∈ rest.head?, isDigit c = false ∧ c ≠ '_') :
    takeDigits (digits ++ rest) = (digits, rest) := by
  cases digits with
  | nil =>
    cases rest with
    | nil => rfl
    | cons c rest => rw [List.nil_append, takeDigits, if_neg (by simp [(stops c rfl).1])]
  | cons d digits =>
    obtain ⟨digit, digits⟩ := List.forall_mem_cons.1 h
    rw [List.cons_append, takeDigits, if_pos digit, moreDigits_append digits stops]

/-- Digits are a magnitude. -/
theorem isSome_readMagnitude? (h : ∀ d ∈ digits, isDigit d = true) (ne : digits ≠ []) :
    (readMagnitude? digits).isSome := by
  have taken : takeDigits (digits ++ []) = (digits, []) := takeDigits_append h nofun
  rw [List.append_nil] at taken
  simp [readMagnitude?, taken, ne, readExponent?]

/-- Digits with a point among them are a magnitude. -/
theorem isSome_readMagnitude?_of_point {fraction : Text} (h : ∀ d ∈ digits, isDigit d = true)
    (hfraction : ∀ d ∈ fraction, isDigit d = true)
    (ne : (digits.isEmpty && fraction.isEmpty) = false) :
    (readMagnitude? (digits ++ '.' :: fraction)).isSome := by
  have taken : takeDigits (digits ++ '.' :: fraction) = (digits, '.' :: fraction) :=
    takeDigits_append h (by rintro _ ⟨⟩; decide)
  have taken' : takeDigits (fraction ++ []) = (fraction, []) := takeDigits_append hfraction nofun
  rw [List.append_nil] at taken'
  simp only [readMagnitude?, taken, taken', ne, Bool.false_eq_true, if_false, readExponent?,
    Option.map_some, Option.isSome_some]

/-- A sign and a magnitude are a number. -/
theorem exists_read? {text body : Text} {negative : Bool}
    (blank : ∀ c ∈ text, isBlank c = false) (sign : takeSign text = (negative, body))
    (h : (readMagnitude? body).isSome) : ∃ value, read? text = some value := by
  obtain ⟨magnitude, read⟩ := Option.isSome_iff_exists.1 h
  rw [read?, Text.trim_eq_self blank, sign]
  simp only [read]
  -- The names of infinity and of what is no number are numbers as well.
  by_cases infinite : body.lower = ("inf" : Text) ∨ body.lower = ("infinity" : Text)
  · rw [if_pos infinite]
    exact ⟨_, rfl⟩
  · rw [if_neg infinite]
    by_cases undefined : body.lower = ("nan" : Text)
    · rw [if_pos undefined]
      exact ⟨_, rfl⟩
    · rw [if_neg undefined]
      exact ⟨_, rfl⟩

theorem takeSign_of_not_sign {text : Text} (h : ∀ c ∈ text.head?, c ≠ '-' ∧ c ≠ '+') :
    takeSign text = (false, text) := by
  rw [takeSign.eq_def]
  split
  · exact absurd rfl (h '-' rfl).1
  · exact absurd rfl (h '+' rfl).2
  · rfl

theorem not_isBlank_of_isDigit {c : Char} (h : isDigit c = true) : isBlank c = false :=
  Text.not_isBlank_of_class rfl h

open Token

/-- What the rule for integers takes is a number. -/
theorem exists_read?_of_isInteger {text : Text} (h : IsInteger text) (ne : text ≠ []) :
    ∃ value, read? text = some value := by
  cases h with
  | unsigned digits =>
    refine exists_read? (fun c mem => not_isBlank_of_isDigit (digits c mem))
      (takeSign_of_not_sign fun c mem => ?_) (isSome_readMagnitude? digits ne)
    have digit := digits c (List.mem_of_mem_head? mem)
    exact ⟨(ne_of_class digit rfl).symm, (ne_of_class digit rfl).symm⟩
  | @negative d digits h =>
    have sign : takeSign ('-' :: d :: digits) = (true, d :: digits) := rfl
    refine exists_read? ?_ sign (isSome_readMagnitude? h (List.cons_ne_nil _ _))
    exact List.forall_mem_cons.2 ⟨rfl, fun c mem => not_isBlank_of_isDigit (h c mem)⟩

/-- What the rule for numbers with a point takes is a number. -/
theorem exists_read?_of_point {whole fraction : Text} (hwhole : IsInteger whole)
    (hfraction : ∀ d ∈ fraction, isDigit d = true)
    (ne : (whole.isEmpty && fraction.isEmpty) = false) :
    ∃ value, read? (whole ++ '.' :: fraction) = some value := by
  have blank {digits : Text} (h : ∀ d ∈ digits, isDigit d = true) :
      ∀ c ∈ digits ++ '.' :: fraction, isBlank c = false := by
    intro c mem
    rcases List.mem_append.1 mem with mem | mem
    · exact not_isBlank_of_isDigit (h c mem)
    · rcases List.mem_cons.1 mem with rfl | mem
      · rfl
      · exact not_isBlank_of_isDigit (hfraction c mem)
  cases hwhole with
  | unsigned digits =>
    refine exists_read? (blank digits) (takeSign_of_not_sign fun c mem => ?_)
      (isSome_readMagnitude?_of_point digits hfraction ne)
    cases whole with
    | nil =>
      cases mem
      decide
    | cons d whole =>
      cases mem
      have digit := digits c List.mem_cons_self
      exact ⟨(ne_of_class digit rfl).symm, (ne_of_class digit rfl).symm⟩
  | @negative d digits h =>
    have sign : takeSign ('-' :: d :: digits ++ '.' :: fraction) =
        (true, d :: digits ++ '.' :: fraction) := rfl
    refine exists_read? ?_ sign (isSome_readMagnitude?_of_point h hfraction rfl)
    exact List.forall_mem_cons.2 ⟨rfl, blank h⟩

end Number

namespace Token

/-! ## Rules and their tokens -/

/-- A token is a lexeme of the program. -/
theorem exists_lexemeAt_of_mem_scanFrom {skip pos : Nat} {text : Text} {token : Token}
    (h : token ∈ scanFrom skip pos text) :
    ∃ c rest, lexemeAt c rest = (some token.kind, token.text) := by
  fun_induction scanFrom skip pos text with
  | case1 => exact absurd h List.not_mem_nil
  | case2 skip pos c rest ih => exact ih h
  | case3 pos c rest kind lexeme first ih =>
    rcases List.mem_cons.1 h with rfl | h
    · exact ⟨c, rest, first⟩
    · exact ih h
  | case4 pos c rest lexeme _ ih => exact ih h

/-- A token that is no error was taken by a rule of its kind. -/
theorem exists_rule_of_mem_scanFrom {skip pos : Nat} {text : Text} {token : Token}
    (h : token ∈ scanFrom skip pos text) (kind : token.kind ≠ .error) :
    ∃ rule ∈ rules, ∃ source, rule.kind = some token.kind ∧ rule.take source = token.text ∧
      token.text ≠ [] := by
  obtain ⟨c, rest, lexeme⟩ := exists_lexemeAt_of_mem_scanFrom h
  rcases lexemeAt_cases c rest with ⟨rule, mem, eq, ne⟩ | eq
  · rw [lexeme] at eq
    obtain ⟨kind_eq, text_eq⟩ := Prod.mk.inj eq
    exact ⟨rule, mem, c :: rest, kind_eq.symm, text_eq.symm, text_eq ▸ ne⟩
  · rw [lexeme] at eq
    exact absurd (Option.some.inj (Prod.mk.inj eq).1) kind

/-- What closes a string ends with a quote. -/
theorem exists_of_stringRest? {text closed : Text} (h : stringRest? text = some closed) :
    ∃ inner, closed = inner ++ ['"'] := by
  fun_induction stringRest? text generalizing closed with
  | case1 => cases h
  | case2 rest =>
    cases h
    exact ⟨[], rfl⟩
  | case3 => cases h
  | case4 => cases h
  | case5 c rest hc ih =>
    obtain ⟨inner, hi, rfl⟩ := Option.map_eq_some_iff.1 h
    obtain ⟨inner, rfl⟩ := ih hi
    exact ⟨'\\' :: c :: inner, rfl⟩
  | case6 c rest _ _ _ ih =>
    obtain ⟨inner, hi, rfl⟩ := Option.map_eq_some_iff.1 h
    obtain ⟨inner, rfl⟩ := ih hi
    exact ⟨c :: inner, rfl⟩

/-- A string stands between quotes. -/
theorem exists_of_takeString {text : Text} (ne : takeString text ≠ []) :
    ∃ inner, takeString text = '"' :: (inner ++ ['"']) := by
  rw [takeString.eq_def] at ne ⊢
  split
  · rename_i rest
    cases closed : stringRest? rest with
    | none => simp [closed] at ne
    | some closed' =>
      obtain ⟨inner, rfl⟩ := exists_of_stringRest? closed
      exact ⟨inner, rfl⟩
  · simp at ne

/-- There is one rule for strings. -/
theorem take_of_kind_string : ∀ rule ∈ rules, rule.kind = some .string →
    rule.take = takeString := by
  simp [rules]

/-- What the rules for numbers take can be read. -/
theorem exists_read?_of_take {rule : Rule} (mem : rule ∈ rules) (kind : rule.kind = some .number)
    {source text : Text} (taken : rule.take source = text) (ne : text ≠ []) :
    ∃ value, Number.read? text = some value := by
  subst taken
  rcases take_of_kind_number rule mem kind with rule_eq | rule_eq
  · rw [rule_eq, takeDecimal] at ne ⊢
    simp only at ne ⊢
    split
    · rename_i rest point
      simp only [point] at ne
      split
      · rename_i empty
        simp [empty] at ne
      · rename_i some_digit
        exact Number.exists_read?_of_point (isInteger_takeInteger source)
          (isDigit_of_mem_takeWhile rest) (Bool.eq_false_iff.2 some_digit)
    · rename_i no_point
      split at ne
      · exact absurd ‹_› (no_point _)
      · exact absurd rfl ne
  · rw [rule_eq] at ne ⊢
    exact Number.exists_read?_of_isInteger (isInteger_takeInteger source) ne

/-- What the rule for integers takes consists of digits and a sign. -/
theorem IsInteger.not_gap {whole : Text} (h : IsInteger whole) : ∀ c ∈ whole, isGap c = false := by
  have digit {c : Char} (hc : isDigit c = true) : isGap c = false := not_gap_of_class rfl hc
  cases h with
  | unsigned digits => exact fun c mem => digit (digits c mem)
  | negative digits => exact List.forall_mem_cons.2 ⟨rfl, fun c mem => digit (digits c mem)⟩

theorem not_gap_of_mem_word {word : Text} (h : word.any isGap = false) :
    ∀ c ∈ word, isGap c = false :=
  fun c mem => Bool.eq_false_iff.2 (List.any_eq_false.1 h c mem)

theorem not_gap_of_mem_takeKeyword {word : Text} (h : word.any isGap = false) (text : Text) :
    ∀ c ∈ takeKeyword word text, isGap c = false := by
  rw [takeKeyword]
  split
  · exact not_gap_of_mem_word h
  · exact List.forall_mem_nil _

theorem not_gap_of_mem_takeFixed {word : Text} (h : word.any isGap = false) (text : Text) :
    ∀ c ∈ takeFixed word text, isGap c = false := by
  rw [takeFixed]
  split
  · exact not_gap_of_mem_word h
  · exact List.forall_mem_nil _

theorem not_gap_of_mem_takeDecimal (text : Text) : ∀ c ∈ takeDecimal text, isGap c = false := by
  rw [takeDecimal]
  simp only
  split
  · rename_i rest _
    split
    · exact List.forall_mem_nil _
    · rw [List.forall_mem_append, List.forall_mem_cons]
      exact ⟨(isInteger_takeInteger text).not_gap, rfl, fun c mem =>
        not_gap_of_class rfl (isDigit_of_mem_takeWhile rest c mem)⟩
  · exact List.forall_mem_nil _

theorem not_gap_of_mem_takeName (text : Text) : ∀ c ∈ takeName text, isGap c = false := by
  cases text with
  | nil => exact List.forall_mem_nil _
  | cons c rest =>
    rw [takeName]
    split
    · rename_i start
      have others : ∀ d ∈ rest.takeWhile isNameRest, isNameRest d = true :=
        List.all_eq_true.1 List.all_takeWhile
      rw [List.forall_mem_cons]
      exact ⟨not_gap_of_class rfl start, fun d mem => not_gap_of_class rfl (others d mem)⟩
    · exact List.forall_mem_nil _

/-- Only the rules for gaps and for strings take gap characters. -/
theorem not_gap_of_mem_take (text : Text) : ∀ rule ∈ rules, rule.kind ≠ none →
    rule.kind ≠ some .string → ∀ c ∈ rule.take text, isGap c = false :=
  forall_mem_rules (fun gap => absurd rfl gap)
    (fun _ _ h _ _ => not_gap_of_mem_takeKeyword h text)
    (fun _ _ h _ _ => not_gap_of_mem_takeFixed h text)
    (fun _ _ => not_gap_of_mem_takeDecimal text)
    (fun _ _ => (isInteger_takeInteger text).not_gap)
    (fun _ _ => not_gap_of_mem_takeName text)
    (fun _ string => absurd rfl string)

/-- A stray character is one character, and in no gap. -/
theorem eq_of_lexemeAt_error {c : Char} {rest text : Text}
    (h : lexemeAt c rest = (some .error, text)) : text = [c] ∧ isGap c = false := by
  constructor
  · rcases lexemeAt_cases c rest with ⟨rule, mem, eq, -⟩ | eq
    · -- No rule makes errors.
      have kinds : ∀ rule ∈ rules, rule.kind ≠ some .error := by simp [rules]
      rw [h] at eq
      exact absurd (Prod.mk.inj eq).1.symm (kinds rule mem)
    · rw [h] at eq
      exact (Prod.mk.inj eq).2
  · refine Bool.eq_false_iff.2 fun gap => ?_
    rw [lexemeAt_gap gap] at h
    cases h

/-- A token that is no string has no gap characters in it. -/
theorem not_gap_of_mem_text {skip pos : Nat} {text : Text} {token : Token}
    (h : token ∈ scanFrom skip pos text) (string : token.kind ≠ .string) :
    ∀ c ∈ token.text, isGap c = false := by
  by_cases error : token.kind = .error
  · obtain ⟨c, rest, lexeme⟩ := exists_lexemeAt_of_mem_scanFrom h
    rw [error] at lexeme
    obtain ⟨single, not_gap⟩ := eq_of_lexemeAt_error lexeme
    rw [single, List.forall_mem_singleton]
    exact not_gap
  · obtain ⟨rule, mem, source, kind, taken, -⟩ := exists_rule_of_mem_scanFrom h error
    rw [← taken]
    refine not_gap_of_mem_take source rule mem ?_ ?_
    · rw [kind]
      exact Option.some_ne_none _
    · rw [kind]
      exact fun eq => string (Option.some.inj eq)

/-- The tokens of a program are well formed. -/
theorem wellFormed_of_mem_scanFrom {skip pos : Nat} {text : Text} {token : Token}
    (h : token ∈ scanFrom skip pos text) : token.WellFormed := by
  constructor
  · intro number
    obtain ⟨rule, mem, source, kind, taken, ne⟩ :=
      exists_rule_of_mem_scanFrom h (by rw [number]; nofun)
    exact exists_read?_of_take mem (kind.trans (congrArg some number)) taken ne
  · intro string
    obtain ⟨rule, mem, source, kind, taken, ne⟩ :=
      exists_rule_of_mem_scanFrom h (by rw [string]; nofun)
    rw [string] at kind
    rw [take_of_kind_string rule mem kind] at taken
    rw [← taken] at ne ⊢
    exact exists_of_takeString ne

/-- The spelling of the operators. -/
def Kind.operator? : Kind → Option Text
  | plus => some "+"
  | minus => some "-"
  | star => some "*"
  | slash => some "/"
  | caret => some "^"
  | _ => none

/-- There is one rule for every operator. -/
theorem take_of_operator? : ∀ rule ∈ rules, ∀ kind, rule.kind = some kind →
    ∀ op, kind.operator? = some op → rule.take = takeFixed op := by
  simp [rules, Kind.operator?]

/-- The token of an operator is spelled as that operator. -/
theorem text_of_operator? {skip pos : Nat} {text op : Text} {token : Token}
    (h : token ∈ scanFrom skip pos text) (spelled : token.kind.operator? = some op) :
    token.text = op := by
  have kind : token.kind ≠ .error := by
    intro error
    rw [error] at spelled
    cases spelled
  obtain ⟨rule, mem, source, kind, taken, ne⟩ := exists_rule_of_mem_scanFrom h kind
  rw [take_of_operator? rule mem _ kind op spelled, takeFixed] at taken
  split at taken
  · exact taken.symm
  · exact absurd taken.symm ne

end Token

end RangeCalc
