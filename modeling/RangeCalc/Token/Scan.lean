import RangeCalc.Token
import RangeCalc.Text.Digit
import RangeCalc.Text.Word

/-!
# Scanning

A program is cut into tokens by an ordered table of rules. A rule says which characters at the front
of a text it takes; the first rule of the table that takes any decides the next token, and a
character that no rule takes is a token of its own, of the kind `error`. So scanning never fails, and
the tokens and the gaps between them make up the whole program.

* A minus sign directly before digits belongs to the number: `5-2` is two numbers.
* A keyword is one only if no word character follows it, and keywords come before names.
* A string may run over several lines; a backslash takes the next character with it, unless that is a
  line feed, in which case the string has no end.
-/

namespace RangeCalc.Token

/-- The four characters that separate tokens. -/
def isGap (c : Char) : Bool := c == ' ' || c == '\t' || c == '\r' || c == '\n'

/-- Takes exactly `word`. -/
def takeFixed (word text : Text) : Text :=
  if word.isPrefixOf text then word else []

/-- Takes exactly `word`, unless a word character follows. -/
def takeKeyword (word text : Text) : Text :=
  if word.isPrefixOf text && !((text.drop word.length).head?.any isWord) then word else []

/-- Takes a run of gap characters. -/
def takeGap (text : Text) : Text := text.takeWhile isGap

/-- Takes digits, with a minus sign before them if there is one. -/
def takeInteger : Text → Text
  | '-' :: text =>
    match text.takeWhile isDigit with
    | [] => []
    | digits => '-' :: digits
  | text => text.takeWhile isDigit

/-- Takes a number with a point: after an integer the digits behind the point may be missing, without
digits before the point they may not. -/
def takeDecimal (text : Text) : Text :=
  let whole := takeInteger text
  match text.drop whole.length with
  | '.' :: rest =>
    let fraction := rest.takeWhile isDigit
    if whole.isEmpty && fraction.isEmpty then [] else whole ++ '.' :: fraction
  | _ => []

/-- Takes a name. -/
def takeName : Text → Text
  | [] => []
  | c :: rest => if isNameStart c then c :: rest.takeWhile isNameRest else []

/-- The rest of a string behind its opening quote, up to and with the closing one. -/
def stringRest? : Text → Option Text
  | [] => none
  | '"' :: _ => some ['"']
  | ['\\'] => none
  | '\\' :: c :: rest => if c = '\n' then none else (stringRest? rest).map ('\\' :: c :: ·)
  | c :: rest => (stringRest? rest).map (c :: ·)

/-- Takes a string with its quotes. -/
def takeString : Text → Text
  | '"' :: rest => ((stringRest? rest).map ('"' :: ·)).getD []
  | _ => []

theorem takeFixed_isPrefix (word text : Text) : takeFixed word text <+: text := by
  unfold takeFixed
  split
  · exact List.isPrefixOf_iff_prefix.1 (by assumption)
  · exact List.nil_prefix

theorem takeKeyword_isPrefix (word text : Text) : takeKeyword word text <+: text := by
  unfold takeKeyword
  split
  · rename_i h
    exact List.isPrefixOf_iff_prefix.1 (Bool.and_eq_true _ _ ▸ h).1
  · exact List.nil_prefix

theorem takeGap_isPrefix (text : Text) : takeGap text <+: text := List.takeWhile_prefix _

theorem takeInteger_isPrefix (text : Text) : takeInteger text <+: text := by
  unfold takeInteger
  split
  · rename_i rest
    split
    · exact List.nil_prefix
    · exact List.cons_prefix_cons.2 ⟨rfl, List.takeWhile_prefix _⟩
  · exact List.takeWhile_prefix _

theorem takeDecimal_isPrefix (text : Text) : takeDecimal text <+: text := by
  unfold takeDecimal
  simp only
  split
  · rename_i rest h
    split
    · exact List.nil_prefix
    · -- The text goes on with a point behind its integer part.
      have point : takeInteger text ++ '.' :: rest = text := by
        have joined := List.take_append_drop (takeInteger text).length text
        rwa [h, ← List.prefix_iff_eq_take.1 (takeInteger_isPrefix text)] at joined
      have inner : takeInteger text ++ '.' :: rest.takeWhile isDigit <+:
          takeInteger text ++ '.' :: rest :=
        (List.prefix_append_right_inj _).2
          (List.cons_prefix_cons.2 ⟨rfl, List.takeWhile_prefix _⟩)
      rwa [point] at inner
  · exact List.nil_prefix

theorem takeName_isPrefix (text : Text) : takeName text <+: text := by
  unfold takeName
  split
  · exact List.nil_prefix
  · split
    · exact List.cons_prefix_cons.2 ⟨rfl, List.takeWhile_prefix _⟩
    · exact List.nil_prefix

/-- What closes a string stands at the front of the text behind its opening quote. -/
theorem prefix_of_stringRest? {text closed : Text} (h : stringRest? text = some closed) :
    closed <+: text := by
  fun_induction stringRest? text generalizing closed with
  | case1 => simp at h
  | case2 rest =>
    cases h
    exact List.cons_prefix_cons.2 ⟨rfl, List.nil_prefix⟩
  | case3 => simp at h
  | case4 => simp at h
  | case5 c rest hc ih =>
    obtain ⟨inner, hi, rfl⟩ := Option.map_eq_some_iff.1 h
    exact List.cons_prefix_cons.2 ⟨rfl, List.cons_prefix_cons.2 ⟨rfl, ih hi⟩⟩
  | case6 c rest _ _ _ ih =>
    obtain ⟨inner, hi, rfl⟩ := Option.map_eq_some_iff.1 h
    exact List.cons_prefix_cons.2 ⟨rfl, ih hi⟩

theorem takeString_isPrefix (text : Text) : takeString text <+: text := by
  unfold takeString
  split
  · rename_i rest
    cases h : stringRest? rest with
    | none => exact List.nil_prefix
    | some closed => exact List.cons_prefix_cons.2 ⟨rfl, prefix_of_stringRest? h⟩
  · exact List.nil_prefix

/-- A rule takes characters from the front of a text and says what they are: a token of some kind, or
a gap. It takes nothing where it does not apply. -/
structure Rule where
  /-- The kind of the token; `none` for whitespace, which is passed over and gives no token. -/
  kind : Option Kind
  take : Text → Text

/-- The rules, in the order in which they are tried. -/
def rules : List Rule := [
  ⟨none, takeGap⟩,
  ⟨some .var, takeKeyword "var"⟩,
  ⟨some .out, takeKeyword "out"⟩,
  ⟨some .print, takeKeyword "print"⟩,
  ⟨some .map, takeKeyword "map"⟩,
  ⟨some .reduce, takeKeyword "reduce"⟩,
  ⟨some .arrow, takeFixed "->"⟩,
  ⟨some .assign, takeFixed "="⟩,
  ⟨some .number, takeDecimal⟩,
  ⟨some .number, takeInteger⟩,
  ⟨some .ident, takeName⟩,
  ⟨some .string, takeString⟩,
  ⟨some .plus, takeFixed "+"⟩,
  ⟨some .minus, takeFixed "-"⟩,
  ⟨some .star, takeFixed "*"⟩,
  ⟨some .slash, takeFixed "/"⟩,
  ⟨some .caret, takeFixed "^"⟩,
  ⟨some .lpar, takeFixed "("⟩,
  ⟨some .rpar, takeFixed ")"⟩,
  ⟨some .lbrace, takeFixed "\x7b"⟩,
  ⟨some .rbrace, takeFixed "\x7d"⟩,
  ⟨some .comma, takeFixed ","⟩]

/-- Every rule takes what it takes from the front. -/
theorem take_prefix_of_mem_rules {rule : Rule} (h : rule ∈ rules) (text : Text) :
    rule.take text <+: text := by
  simp only [rules, List.mem_cons, List.not_mem_nil, or_false] at h
  rcases h with rfl | rfl | rfl | rfl | rfl | rfl | rfl | rfl | rfl | rfl | rfl | rfl | rfl | rfl |
    rfl | rfl | rfl | rfl | rfl | rfl | rfl | rfl
  case inl => exact takeGap_isPrefix text
  all_goals
    first
    | exact takeFixed_isPrefix _ text
    | exact takeKeyword_isPrefix _ text
    | exact takeDecimal_isPrefix text
    | exact takeInteger_isPrefix text
    | exact takeName_isPrefix text
    | exact takeString_isPrefix text

/-- What a rule makes of a text, `none` where it takes nothing. -/
def Rule.lexeme? (rule : Rule) (text : Text) : Option (Option Kind × Text) :=
  match rule.take text with
  | [] => none
  | lexeme => some (rule.kind, lexeme)

/-- The kind and the characters of the token or gap at the front of `c :: rest`. -/
def lexemeAt (c : Char) (rest : Text) : Option Kind × Text :=
  (rules.findSome? (·.lexeme? (c :: rest))).getD (some .error, [c])

/-- A token or gap is not empty and stands at the front of the text. -/
theorem lexemeAt_spec (c : Char) (rest : Text) :
    (lexemeAt c rest).2 ≠ [] ∧ (lexemeAt c rest).2 <+: c :: rest := by
  unfold lexemeAt
  cases h : rules.findSome? (·.lexeme? (c :: rest)) with
  | none => exact ⟨List.cons_ne_nil _ _, List.cons_prefix_cons.2 ⟨rfl, List.nil_prefix⟩⟩
  | some found =>
    obtain ⟨rule, mem, hr⟩ := List.exists_of_findSome?_eq_some h
    unfold Rule.lexeme? at hr
    split at hr
    · simp at hr
    · rename_i some_taken
      cases hr
      exact ⟨some_taken, take_prefix_of_mem_rules mem _⟩

/-- Scans a text whose first character stands at `pos` and whose first `skip` characters belong to
the token or gap before. -/
def scanFrom : (skip pos : Nat) → Text → List Token
  | _, _, [] => []
  | skip + 1, pos, _ :: rest => scanFrom skip (pos + 1) rest
  | 0, pos, c :: rest =>
    match lexemeAt c rest with
    | (some kind, lexeme) => ⟨kind, lexeme, pos⟩ :: scanFrom (lexeme.length - 1) (pos + 1) rest
    | (none, lexeme) => scanFrom (lexeme.length - 1) (pos + 1) rest

/-- Characters that belong to what came before are passed over. -/
theorem scanFrom_skip (skip pos : Nat) (text : Text) :
    scanFrom skip pos text = scanFrom 0 (pos + skip) (text.drop skip) := by
  induction text generalizing skip pos with
  | nil => simp [scanFrom]
  | cons c rest ih =>
    cases skip with
    | zero => rfl
    | succ skip =>
      rw [scanFrom, ih, List.drop_succ_cons]
      congr 1
      omega

/-- The tokens of a program. -/
def scan (text : Text) : List Token := scanFrom 0 0 text

end RangeCalc.Token
