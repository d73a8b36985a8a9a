import RangeCalc.Token.Scan

/-!
# Lexemes in their surroundings

A text is scanned lexeme by lexeme. What a rule takes may depend on what follows, so these lemmas
say for which continuations a piece of text is a lexeme of its own: a name or a number is one if the
text ends behind it or goes on with a blank, a comma or a closing bracket.

* `Token.scanFrom_of_lexemeAt`, `Token.scanFrom_gap`: one step of scanning;
* `Token.forall_mem_rules`: the forms of the rules;
* `Token.lexemeAt_name`: names;
* `Token.lexemeAt_number`: numbers, as far as they are scanned as one token when they stand alone;
* `Token.Scans`: the tokens of a text that is put together from such pieces.
-/

namespace RangeCalc.Token

/-! ## Steps of scanning -/

/-- A lexeme that makes up a token. -/
theorem scanFrom_of_lexemeAt {c : Char} {cs rest : Text} {kind : Kind}
    (h : lexemeAt c (cs ++ rest) = (some kind, c :: cs)) (pos : Nat) :
    scanFrom 0 pos (c :: cs ++ rest) =
      ⟨kind, c :: cs, pos⟩ :: scanFrom 0 (pos + (c :: cs).length) rest := by
  rw [List.cons_append, scanFrom, h]
  simp only [List.length_cons, Nat.add_sub_cancel]
  rw [scanFrom_skip, List.drop_left, Nat.add_assoc, Nat.add_comm 1]

/-- A run of gap characters is one lexeme. -/
theorem lexemeAt_gap {c : Char} (h : isGap c = true) (rest : Text) :
    lexemeAt c rest = (none, c :: rest.takeWhile isGap) := by
  simp only [lexemeAt, rules, List.findSome?, Rule.lexeme?, takeGap, List.takeWhile_cons_of_pos h,
    Option.getD_some]

/-- Gap characters are passed over one by one. -/
theorem scanFrom_gap {c : Char} (h : isGap c = true) (pos : Nat) (rest : Text) :
    scanFrom 0 pos (c :: rest) = scanFrom 0 (pos + 1) rest := by
  rw [scanFrom, lexemeAt_gap h]
  simp only [List.length_cons, Nat.add_sub_cancel]
  cases rest with
  | nil => rfl
  | cons d rest =>
    -- The run of gap characters goes on or ends here; either way the same text is left to scan.
    by_cases gap : isGap d = true
    · rw [scanFrom, lexemeAt_gap gap, List.takeWhile_cons_of_pos gap, List.length_cons, scanFrom]
      simp only [List.length_cons, Nat.add_sub_cancel]
    · rw [List.takeWhile_cons_of_neg gap, List.length_nil]

/-- Tokens stand where scanning has come to, or later. -/
theorem le_pos_of_mem_scanFrom {skip pos : Nat} {text : Text} {token : Token}
    (h : token ∈ scanFrom skip pos text) : pos ≤ token.pos := by
  fun_induction scanFrom skip pos text with
  | case1 => exact absurd h List.not_mem_nil
  | case2 skip pos c rest ih => exact Nat.le_of_succ_le (ih h)
  | case3 pos c rest kind lexeme _ ih =>
    rcases List.mem_cons.1 h with rfl | h
    · exact Nat.le_refl _
    · exact Nat.le_of_succ_le (ih h)
  | case4 pos c rest lexeme _ ih => exact Nat.le_of_succ_le (ih h)

/-! ## The table of rules -/

/-- The rules take gaps, keywords, signs, numbers, names and strings. No keyword and no sign has a gap
character in it. -/
theorem forall_mem_rules {P : Rule → Prop} (gap : P ⟨none, takeGap⟩)
    (keyword : ∀ kind word, word.any isGap = false → P ⟨some kind, takeKeyword word⟩)
    (fixed : ∀ kind word, word.any isGap = false → P ⟨some kind, takeFixed word⟩)
    (decimal : P ⟨some .number, takeDecimal⟩) (integer : P ⟨some .number, takeInteger⟩)
    (name : P ⟨some .ident, takeName⟩) (string : P ⟨some .string, takeString⟩) :
    ∀ rule ∈ rules, P rule := by
  simp only [rules, List.forall_mem_cons]
  exact ⟨gap, keyword _ _ rfl, keyword _ _ rfl, keyword _ _ rfl, keyword _ _ rfl, keyword _ _ rfl,
    fixed _ _ rfl, fixed _ _ rfl, decimal, integer, name, string, fixed _ _ rfl, fixed _ _ rfl,
    fixed _ _ rfl, fixed _ _ rfl, fixed _ _ rfl, fixed _ _ rfl, fixed _ _ rfl, fixed _ _ rfl,
    fixed _ _ rfl, fixed _ _ rfl, List.forall_mem_nil _⟩

/-- A lexeme is what some rule takes, or a stray character. -/
theorem lexemeAt_cases (c : Char) (rest : Text) :
    (∃ rule ∈ rules, lexemeAt c rest = (rule.kind, rule.take (c :: rest)) ∧
      rule.take (c :: rest) ≠ []) ∨ lexemeAt c rest = (some .error, [c]) := by
  rw [lexemeAt]
  cases found : rules.findSome? (·.lexeme? (c :: rest)) with
  | none => exact .inr rfl
  | some lexeme =>
    obtain ⟨rule, mem, taken⟩ := List.exists_of_findSome?_eq_some found
    rw [Rule.lexeme?] at taken
    split at taken
    · cases taken
    · rename_i ne
      cases taken
      exact .inl ⟨rule, mem, rfl, ne⟩

/-! ## Rules that do not apply -/

/-- The first rule that takes something decides. -/
theorem lexemeAt_of_rule (n : Nat) {rule : Rule} (found : rules[n]? = some rule) {c d : Char}
    {rest ds : Text} (skipped : ∀ other ∈ rules.take n, other.take (c :: rest) = [])
    (taken : rule.take (c :: rest) = d :: ds) : lexemeAt c rest = (rule.kind, d :: ds) := by
  obtain ⟨lt, found⟩ := List.getElem?_eq_some_iff.1 found
  have none : (rules.take n).findSome? (·.lexeme? (c :: rest)) = none := by
    rw [List.findSome?_eq_none_iff]
    intro other mem
    rw [Rule.lexeme?, skipped other mem]
  have some : rule.lexeme? (c :: rest) = some (rule.kind, d :: ds) := by
    rw [Rule.lexeme?, taken]
  rw [lexemeAt, ← List.take_append_drop n rules, List.findSome?_append, none,
    List.drop_eq_getElem_cons lt, found, List.findSome?_cons, some]
  rfl

theorem takeGap_of_not_gap {c : Char} (h : isGap c = false) (rest : Text) :
    takeGap (c :: rest) = [] := by
  rw [takeGap, List.takeWhile_cons_of_neg (by rw [h]; exact Bool.false_ne_true)]

theorem takeFixed_of_ne {w c : Char} (h : w ≠ c) (ws rest : Text) :
    takeFixed (w :: ws) (c :: rest) = [] := by
  rw [takeFixed, List.isPrefixOf_cons_cons, beq_false_of_ne h, Bool.false_and,
    if_neg Bool.false_ne_true]

/-- A minus sign starts an arrow only if the head of the arrow follows. -/
theorem takeFixed_arrow_of_ne {c : Char} (h : '>' ≠ c) (rest : Text) :
    takeFixed "->" ('-' :: c :: rest) = [] := by
  have no_prefix : List.isPrefixOf ("->" : Text) ('-' :: c :: rest) = false := by
    simpa [List.isPrefixOf] using h
  rw [takeFixed, no_prefix, if_neg Bool.false_ne_true]

theorem takeKeyword_of_ne {w c : Char} (h : w ≠ c) (ws rest : Text) :
    takeKeyword (w :: ws) (c :: rest) = [] := by
  rw [takeKeyword, List.isPrefixOf_cons_cons, beq_false_of_ne h, Bool.false_and, Bool.false_and,
    if_neg Bool.false_ne_true]

/-- A number starts with a sign, a digit or a point. -/
theorem takeInteger_of_not_digit {c : Char} (sign : c ≠ '-') (digit : isDigit c = false)
    (rest : Text) :
    takeInteger (c :: rest) = [] := by
  rw [takeInteger.eq_def]
  split
  · rename_i h
    cases h
    exact absurd rfl sign
  · rw [List.takeWhile_cons_of_neg (by rw [digit]; exact Bool.false_ne_true)]

theorem takeDecimal_of_not_digit {c : Char} (sign : c ≠ '-') (point : c ≠ '.')
    (digit : isDigit c = false) (rest : Text) : takeDecimal (c :: rest) = [] := by
  rw [takeDecimal, takeInteger_of_not_digit sign digit]
  simp only [List.length_nil, List.drop_zero]
  split
  · rename_i h
    cases h
    exact absurd rfl point
  · rfl

/-! ## Characters -/

/-- The characters that may stand behind a name or number. -/
def endings : List Char := [' ', ')', ',', '\x7d']

/-- The text is over or goes on with a character that ends names and numbers. -/
def ends (text : Text) : Bool := text.head?.all endings.contains

theorem mem_of_ends {rest : Text} (h : ends rest = true) {c : Char} (hc : c ∈ rest.head?) :
    c ∈ endings := by
  rw [ends, Option.mem_def.1 hc] at h
  exact List.contains_iff_mem.1 h

theorem takeWhile_of_head {p : Char → Bool} {rest : Text} (h : ∀ c ∈ rest.head?, p c = false) :
    rest.takeWhile p = [] := by
  cases rest with
  | nil => rfl
  | cons c rest => rw [List.takeWhile_cons_of_neg (by rw [h c rfl]; exact Bool.false_ne_true)]

/-- A run of characters stops at the end of a name or number. -/
theorem takeWhile_of_ends {p : Char → Bool} (h : endings.any p = false) {rest : Text}
    (hrest : ends rest = true) : rest.takeWhile p = [] :=
  takeWhile_of_head fun c hc => Bool.eq_false_iff.2 (List.any_eq_false.1 h c (mem_of_ends hrest hc))

/-- A character of a class is none of those outside it. -/
theorem ne_of_class {p : Char → Bool} {c d : Char} (hc : p c = true) (hd : p d = false) : d ≠ c := by
  rintro rfl
  rw [hc] at hd
  cases hd

/-- A class without gap characters. -/
theorem not_gap_of_class {p : Char → Bool} (none : [' ', '\t', '\r', '\n'].any p = false) {c : Char}
    (hc : p c = true) : isGap c = false := by
  have ne {d : Char} (mem : d ∈ [' ', '\t', '\r', '\n']) : c ≠ d :=
    (ne_of_class hc (Bool.eq_false_iff.2 (List.any_eq_false.1 none d mem))).symm
  simp only [isGap, Bool.or_eq_false_iff, beq_eq_false_iff_ne]
  exact ⟨⟨⟨ne (by simp), ne (by simp)⟩, ne (by simp)⟩, ne (by simp)⟩

/-- A name starts with an ASCII letter or an underscore. -/
theorem toNat_of_isNameStart {c : Char} (h : isNameStart c = true) :
    65 ≤ c.toNat ∧ c.toNat ≤ 90 ∨ 97 ≤ c.toNat ∧ c.toNat ≤ 122 ∨ c.toNat = 95 := by
  have cases : (decide (c.val ≥ 'A'.val ∧ c.val ≤ 'Z'.val) ||
      decide (c.val ≥ 'a'.val) && decide (c.val ≤ 'z'.val) || c == '_') = true := h
  simp only [Bool.or_eq_true, Bool.and_eq_true, decide_eq_true_eq, beq_iff_eq] at cases
  rcases cases with (⟨h₁, h₂⟩ | ⟨h₁, h₂⟩) | rfl
  · exact .inl ⟨UInt32.le_iff_toNat_le.1 h₁, UInt32.le_iff_toNat_le.1 h₂⟩
  · exact .inr (.inl ⟨UInt32.le_iff_toNat_le.1 h₁, UInt32.le_iff_toNat_le.1 h₂⟩)
  · exact .inr (.inr rfl)

theorem isNameRest_of_isNameStart {c : Char} (h : isNameStart c = true) : isNameRest c = true := by
  show (c.isAlpha || c.isDigit || c == '_') = true
  simp only [isNameStart, Bool.or_eq_true] at h ⊢
  rcases h with h | h
  · exact .inl (.inl h)
  · exact .inr h

theorem isDigit_of_isNameStart {c : Char} (h : isNameStart c = true) : isDigit c = false := by
  have bounds := toNat_of_isNameStart h
  rw [isDigit, digitValue?, if_pos (by omega), if_neg]
  · rfl
  · rintro ⟨-, le⟩
    have le : c.toNat ≤ 57 := UInt32.le_iff_toNat_le.1 (Char.le_def.1 le)
    omega

/-- What continues a name would also continue a keyword. -/
theorem isWord_of_isNameRest {c : Char} (h : isNameRest c = true) : isWord c = true := by
  have ascii : c.toNat < 128 := by
    have cases : (c.isAlpha || decide (c.val ≥ '0'.val) && decide (c.val ≤ '9'.val) || c == '_') =
        true := h
    simp only [Bool.or_eq_true, Bool.and_eq_true, decide_eq_true_eq, beq_iff_eq] at cases
    rcases cases with (alpha | ⟨-, le⟩) | rfl
    · have bounds := toNat_of_isNameStart (by rw [isNameStart, alpha, Bool.true_or])
      omega
    · have le : c.toNat ≤ 57 := UInt32.le_iff_toNat_le.1 le
      omega
    · decide
  rw [isWord, if_pos ascii, h]

/-! ## Names -/

/-- The words that are no names. -/
def keywords : List Text := ["var", "out", "print", "map", "reduce"]

theorem isNameRest_of_mem_keywords : ∀ word ∈ keywords, ∀ d ∈ word, isNameRest d = true := by
  have all : (keywords.all fun word => word.all isNameRest) = true := rfl
  intro word mem
  exact List.all_eq_true.1 (List.all_eq_true.1 all word mem)

/-- A word of ASCII letters, digits and underscores that does not start with a digit and is no
keyword. -/
inductive IsName : Text → Prop
  | word {c : Char} {cs : Text} (start : isNameStart c = true)
      (others : ∀ d ∈ cs, isNameRest d = true) (not_keyword : c :: cs ∉ keywords) : IsName (c :: cs)

/-- A keyword is not taken from the front of another word. -/
theorem takeKeyword_of_word {word name rest : Text} (hword : ∀ d ∈ word, isNameRest d = true)
    (hname : ∀ d ∈ name, isNameRest d = true) (ne : name ≠ word) (hrest : ends rest = true) :
    takeKeyword word (name ++ rest) = [] := by
  rw [takeKeyword, if_neg]
  intro taken
  obtain ⟨front, stops⟩ := Bool.and_eq_true_iff.1 taken
  rw [List.isPrefixOf_iff_prefix] at front
  rcases List.prefix_or_prefix_of_prefix front (List.prefix_append name rest) with
    ⟨more, rfl⟩ | ⟨more, rfl⟩
  · -- The name is longer than the keyword, and goes on with a word character.
    cases more with
    | nil => exact ne (List.append_nil _)
    | cons d more =>
      have isWord_d := isWord_of_isNameRest (hname d (by simp))
      simp [isWord_d] at stops
  · -- The keyword is longer than the name, and what ends the name is part of no keyword.
    cases more with
    | nil => exact ne (List.append_nil _).symm
    | cons d more =>
      obtain ⟨left, rfl⟩ := (List.prefix_append_right_inj name).1 front
      have none := takeWhile_of_ends (p := isNameRest) rfl hrest
      rw [List.cons_append, List.takeWhile_cons_of_pos (hword d (by simp))] at none
      cases none

/-- A name is a lexeme of its own in front of what ends it. -/
theorem lexemeAt_name {c : Char} {cs rest : Text} (h : IsName (c :: cs))
    (hrest : ends rest = true) :
    lexemeAt c (cs ++ rest) = (some .ident, c :: cs) := by
  cases h with
  | word start others not_keyword =>
    have not_start {d : Char} (hd : isNameStart d = false) : d ≠ c := ne_of_class start hd
    have hname : ∀ d ∈ c :: cs, isNameRest d = true :=
      List.forall_mem_cons.2 ⟨isNameRest_of_isNameStart start, others⟩
    have keyword {word : Text} (mem : word ∈ keywords) :
        takeKeyword word (c :: (cs ++ rest)) = [] :=
      takeKeyword_of_word (isNameRest_of_mem_keywords word mem) hname
        (fun eq => not_keyword (eq ▸ mem)) hrest
    have taken : takeName (c :: (cs ++ rest)) = c :: cs := by
      rw [takeName, if_pos start, List.takeWhile_append_of_pos others,
        takeWhile_of_ends rfl hrest, List.append_nil]
    -- Gaps, keywords, `->`, `=` and numbers come before names, and none of them takes anything.
    refine lexemeAt_of_rule 10 rfl ?_ taken
    have gap : isGap c = false := not_gap_of_class rfl start
    have digit := isDigit_of_isNameStart start
    simp only [rules, List.take, List.forall_mem_cons]
    exact ⟨takeGap_of_not_gap gap _, keyword (by decide), keyword (by decide), keyword (by decide),
      keyword (by decide), keyword (by decide), takeFixed_of_ne (not_start rfl) _ _,
      takeFixed_of_ne (not_start rfl) _ _,
      takeDecimal_of_not_digit (not_start rfl).symm (not_start rfl).symm digit _,
      takeInteger_of_not_digit (not_start rfl).symm digit _, List.forall_mem_nil _⟩

/-! ## Numbers -/

/-- Digits, which may be missing, or a minus sign and digits, which may not. -/
inductive IsInteger : Text → Prop
  | unsigned {digits : Text} (h : ∀ d ∈ digits, isDigit d = true) : IsInteger digits
  | negative {d : Char} {digits : Text} (h : ∀ e ∈ d :: digits, isDigit e = true) :
      IsInteger ('-' :: d :: digits)

theorem isDigit_of_mem_takeWhile (text : Text) : ∀ d ∈ text.takeWhile isDigit, isDigit d = true :=
  List.all_eq_true.1 List.all_takeWhile

theorem isInteger_takeInteger (text : Text) : IsInteger (takeInteger text) := by
  rw [takeInteger.eq_def]
  split
  · rename_i rest
    have digits := isDigit_of_mem_takeWhile rest
    cases taken : rest.takeWhile isDigit with
    | nil => exact .unsigned (List.forall_mem_nil _)
    | cons d more =>
      rw [taken] at digits
      exact .negative digits
  · exact .unsigned (isDigit_of_mem_takeWhile text)

/-- An integer is not continued by what is neither a digit nor a sign. -/
theorem takeInteger_append {whole rest : Text} (h : IsInteger whole)
    (stops : ∀ c ∈ rest.head?, isDigit c = false ∧ c ≠ '-') :
    takeInteger (whole ++ rest) = whole := by
  have none : rest.takeWhile isDigit = [] := takeWhile_of_head fun c hc => (stops c hc).1
  cases h with
  | unsigned digits =>
    have taken : (whole ++ rest).takeWhile isDigit = whole := by
      rw [List.takeWhile_append_of_pos digits, none, List.append_nil]
    rw [takeInteger.eq_def]
    split
    · -- Neither digits nor what stops them start with a sign.
      rename_i text eq
      cases whole with
      | nil => exact absurd rfl (stops '-' (by rw [List.nil_append] at eq; rw [eq]; rfl)).2
      | cons d whole =>
        cases eq
        exact absurd (digits '-' List.mem_cons_self) (by decide)
    · exact taken
  | @negative d more digits =>
    rw [List.cons_append, takeInteger, List.takeWhile_append_of_pos digits, none, List.append_nil]

/-- The parts of a number with a point. -/
theorem exists_of_takeDecimal {text : Text} (h : takeDecimal text = text) (ne : text ≠ []) :
    ∃ whole fraction, text = whole ++ '.' :: fraction ∧ IsInteger whole ∧
      (∀ d ∈ fraction, isDigit d = true) ∧ (whole.isEmpty && fraction.isEmpty) = false := by
  rw [takeDecimal] at h
  simp only at h
  split at h
  · rename_i rest _
    split at h
    · exact absurd h.symm ne
    · rename_i some_digit
      exact ⟨_, _, h.symm, isInteger_takeInteger text, isDigit_of_mem_takeWhile rest,
        Bool.eq_false_iff.2 some_digit⟩
  · exact absurd h.symm ne

/-- A number with a point is not continued by what is no digit. -/
theorem takeDecimal_append {whole fraction rest : Text} (hwhole : IsInteger whole)
    (hfraction : ∀ d ∈ fraction, isDigit d = true)
    (ne : (whole.isEmpty && fraction.isEmpty) = false)
    (stops : rest.takeWhile isDigit = []) :
    takeDecimal (whole ++ '.' :: (fraction ++ rest)) = whole ++ '.' :: fraction := by
  have integer : takeInteger (whole ++ '.' :: (fraction ++ rest)) = whole :=
    takeInteger_append hwhole (by rintro _ ⟨⟩; decide)
  rw [takeDecimal, integer, List.drop_left]
  simp only [List.takeWhile_append_of_pos hfraction, stops, List.append_nil, ne,
    Bool.false_eq_true, if_false]

/-- An integer without a point behind it is no number with a point. -/
theorem takeDecimal_integer {whole rest : Text} (h : IsInteger whole)
    (stops : ∀ c ∈ rest.head?, isDigit c = false ∧ c ≠ '-') (point : '.' ∉ rest.head?) :
    takeDecimal (whole ++ rest) = [] := by
  rw [takeDecimal, takeInteger_append h stops, List.drop_left]
  split
  · exact absurd rfl point
  · rfl

/-- The first characters of a number: a digit, a minus sign before a digit, or a point. -/
inductive StartsNumber : Text → Prop
  | digit {c : Char} {rest : Text} (h : isDigit c = true) : StartsNumber (c :: rest)
  | negative {d : Char} {rest : Text} (h : isDigit d = true) : StartsNumber ('-' :: d :: rest)
  | point {rest : Text} : StartsNumber ('.' :: rest)

theorem IsInteger.startsNumber {whole : Text} (h : IsInteger whole) (ne : whole ≠ [])
    (rest : Text) :
    StartsNumber (whole ++ rest) := by
  cases h with
  | unsigned digits =>
    cases whole with
    | nil => exact absurd rfl ne
    | cons d whole => exact .digit (digits d List.mem_cons_self)
  | negative digits => exact .negative (digits _ List.mem_cons_self)

/-- No rule in front of those for numbers takes anything from a number. -/
theorem StartsNumber.skipped {text : Text} (h : StartsNumber text) :
    ∀ other ∈ rules.take 8, other.take text = [] := by
  simp only [rules, List.take, List.forall_mem_cons]
  cases h with
  | @digit c rest digit =>
    have ne {d : Char} (hd : isDigit d = false) : d ≠ c := ne_of_class digit hd
    have gap : isGap c = false := not_gap_of_class rfl digit
    exact ⟨takeGap_of_not_gap gap _, takeKeyword_of_ne (ne rfl) _ _,
      takeKeyword_of_ne (ne rfl) _ _, takeKeyword_of_ne (ne rfl) _ _,
      takeKeyword_of_ne (ne rfl) _ _, takeKeyword_of_ne (ne rfl) _ _,
      takeFixed_of_ne (ne rfl) _ _, takeFixed_of_ne (ne rfl) _ _, List.forall_mem_nil _⟩
  | @negative d rest digit =>
    have ne : '>' ≠ d := by
      rintro rfl
      exact absurd digit (by decide)
    exact ⟨rfl, rfl, rfl, rfl, rfl, rfl, takeFixed_arrow_of_ne ne rest, rfl, List.forall_mem_nil _⟩
  | point => exact ⟨rfl, rfl, rfl, rfl, rfl, rfl, rfl, rfl, List.forall_mem_nil _⟩

/-- There are two rules for numbers. -/
theorem take_of_kind_number : ∀ rule ∈ rules, rule.kind = some .number →
    rule.take = takeDecimal ∨ rule.take = takeInteger := by
  simp [rules]

/-- A text that is scanned as a single number is an integer or a number with a point. -/
theorem take_eq_self_of_scan {c : Char} {cs : Text}
    (h : scan (c :: cs) = [⟨.number, c :: cs, 0⟩]) :
    takeDecimal (c :: cs) = c :: cs ∨ takeInteger (c :: cs) = c :: cs := by
  have lexeme : lexemeAt c cs = (some .number, c :: cs) := by
    rw [scan, scanFrom] at h
    split at h
    · rename_i kind lexeme first
      obtain ⟨⟨⟩, -⟩ := List.cons.inj h
      exact first
    · -- What follows a gap does not stand at the front.
      have late := le_pos_of_mem_scanFrom (h ▸ List.mem_singleton_self _)
      exact absurd late (Nat.not_succ_le_zero _)
  rcases lexemeAt_cases c cs with ⟨rule, mem, eq, -⟩ | eq
  · rw [lexeme] at eq
    obtain ⟨kind, taken⟩ := Prod.mk.inj eq
    rcases take_of_kind_number rule mem kind.symm with rule_eq | rule_eq
    · exact .inl (rule_eq ▸ taken.symm)
    · exact .inr (rule_eq ▸ taken.symm)
  · rw [lexeme] at eq
    cases eq

/-- A number that is scanned as one token when it stands alone is a lexeme of its own in front of
what ends it. -/
theorem lexemeAt_number {c : Char} {cs rest : Text}
    (h : scan (c :: cs) = [⟨.number, c :: cs, 0⟩]) (hrest : ends rest = true) :
    lexemeAt c (cs ++ rest) = (some .number, c :: cs) := by
  have stops : ∀ d ∈ rest.head?, isDigit d = false ∧ d ≠ '-' := by
    intro d hd
    have mem := mem_of_ends hrest hd
    have none : endings.any isDigit = false := rfl
    refine ⟨Bool.eq_false_iff.2 (List.any_eq_false.1 none d mem), ?_⟩
    rintro rfl
    exact absurd mem (by decide)
  rcases take_eq_self_of_scan h with decimal | integer
  · obtain ⟨whole, fraction, eq, hwhole, hfraction, ne⟩ :=
      exists_of_takeDecimal decimal (List.cons_ne_nil c cs)
    have text_eq : c :: (cs ++ rest) = whole ++ '.' :: (fraction ++ rest) := by
      rw [← List.cons_append, eq, List.append_assoc, List.cons_append]
    have starts : StartsNumber (c :: (cs ++ rest)) := by
      rw [text_eq]
      by_cases empty : whole = []
      · rw [empty]
        exact .point
      · exact hwhole.startsNumber empty _
    refine lexemeAt_of_rule 8 rfl starts.skipped ?_
    rw [text_eq, eq]
    exact takeDecimal_append hwhole hfraction ne (takeWhile_of_head fun d hd => (stops d hd).1)
  · -- The rule for numbers with a point comes first, and is out for want of a point.
    have hwhole := isInteger_takeInteger (c :: cs)
    rw [integer] at hwhole
    have starts := hwhole.startsNumber (List.cons_ne_nil c cs) rest
    have point : '.' ∉ rest.head? := fun hd => absurd (mem_of_ends hrest hd) (by decide)
    have split : rules.take 9 = rules.take 8 ++ [⟨some .number, takeDecimal⟩] := rfl
    refine lexemeAt_of_rule 9 rfl ?_ (takeInteger_append hwhole stops)
    rw [split, List.forall_mem_append]
    refine ⟨starts.skipped, fun other mem => ?_⟩
    rw [List.mem_singleton.1 mem]
    exact takeDecimal_integer hwhole stops point

/-- A minus sign in front of a name is a token of its own. -/
theorem lexemeAt_minus {c : Char} (h : isNameStart c = true) (rest : Text) :
    lexemeAt '-' (c :: rest) = (some .minus, ['-']) := by
  have digit := isDigit_of_isNameStart h
  have arrow : takeFixed "->" ('-' :: c :: rest) = [] := by
    have ne : '>' ≠ c := by
      rintro rfl
      exact absurd h (by decide)
    exact takeFixed_arrow_of_ne ne rest
  have integer : takeInteger ('-' :: c :: rest) = [] := by
    rw [takeInteger, takeWhile_of_head (by rintro _ ⟨⟩; exact digit)]
  have decimal : takeDecimal ('-' :: c :: rest) = [] := by
    rw [takeDecimal, integer]
    rfl
  refine lexemeAt_of_rule 13 rfl ?_ rfl
  simp only [rules, List.take, List.forall_mem_cons]
  exact ⟨rfl, rfl, rfl, rfl, rfl, rfl, arrow, rfl, decimal, integer, rfl, rfl, rfl,
    List.forall_mem_nil _⟩

/-! ## Texts -/

/-- Wherever the text stands in front of `rest`, it is scanned as tokens of the given form, and
scanning goes on with `rest`. -/
def Scans (text rest : Text) (Q : List Token → Prop) : Prop :=
  ∀ pos, ∃ tokens, scanFrom 0 pos (text ++ rest) = tokens ++ scanFrom 0 (pos + text.length) rest ∧
    Q tokens

namespace Scans

variable {text rest : Text} {Q : List Token → Prop}

theorem nil (h : Q []) : Scans [] rest Q := fun _ => ⟨[], rfl, h⟩

theorem mono {P : List Token → Prop} (h : Scans text rest P) (le : ∀ tokens, P tokens → Q tokens) :
    Scans text rest Q := by
  intro pos
  obtain ⟨tokens, scanned, hP⟩ := h pos
  exact ⟨tokens, scanned, le tokens hP⟩

/-- A text and then another. -/
theorem append {text' : Text} {P : List Token → Prop} (h : Scans text (text' ++ rest) P)
    (next : ∀ tokens, P tokens → Scans text' rest fun more => Q (tokens ++ more)) :
    Scans (text ++ text') rest Q := by
  intro pos
  obtain ⟨tokens, scanned, hP⟩ := h pos
  obtain ⟨more, scanned', hQ⟩ := next tokens hP (pos + text.length)
  refine ⟨tokens ++ more, ?_, hQ⟩
  rw [List.append_assoc, scanned, scanned', List.append_assoc, List.length_append, Nat.add_assoc]

/-- A blank is no token. -/
theorem blank (h : Scans text rest Q) : Scans (' ' :: text) rest Q := by
  intro pos
  obtain ⟨tokens, scanned, hQ⟩ := h (pos + 1)
  refine ⟨tokens, ?_, hQ⟩
  rw [List.cons_append, scanFrom_gap rfl, scanned, List.length_cons, Nat.add_assoc, Nat.add_comm 1]

/-- A lexeme that makes up a token, and then more text. -/
theorem token (c : Char) (cs : Text) {kind : Kind}
    (h : lexemeAt c (cs ++ (text ++ rest)) = (some kind, c :: cs))
    (next : ∀ token : Token, token.kind = kind → token.text = c :: cs →
      Scans text rest fun tokens => Q (token :: tokens)) :
    Scans (c :: cs ++ text) rest Q := by
  intro pos
  obtain ⟨tokens, scanned, hQ⟩ := next ⟨kind, c :: cs, pos⟩ rfl rfl (pos + (c :: cs).length)
  refine ⟨_ :: tokens, ?_, hQ⟩
  rw [List.append_assoc, scanFrom_of_lexemeAt h, scanned, List.length_append, Nat.add_assoc,
    List.cons_append]

/-- A name, and then more text. -/
theorem name {name : Text} (h : IsName name) (hrest : ends (text ++ rest) = true)
    (next : ∀ token : Token, token.kind = .ident → token.text = name →
      Scans text rest fun tokens => Q (token :: tokens)) :
    Scans (name ++ text) rest Q := by
  cases h with
  | word start others not_keyword =>
    exact token _ _ (lexemeAt_name (.word start others not_keyword) hrest) next

/-- A number, and then more text. -/
theorem number {number : Text} (h : scan number = [⟨.number, number, 0⟩])
    (hrest : ends (text ++ rest) = true)
    (next : ∀ token : Token, token.kind = .number → token.text = number →
      Scans text rest fun tokens => Q (token :: tokens)) :
    Scans (number ++ text) rest Q := by
  cases number with
  | nil => cases h
  | cons c cs => exact token c cs (lexemeAt_number h hrest) next

end Scans

end RangeCalc.Token
