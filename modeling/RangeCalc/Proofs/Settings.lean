import Mathlib
import RangeCalc.Settings
import RangeCalc.Proofs.Token.WellFormed

/-!
# What the settings come to

Each numeric setting has a meaning for every text: the number that the text is, the level that it
names, or the default. How many events are kept is always found. The log level is not: a text whose
characters all have a digit value is taken for a number before it is known to be one, so a digit
that takes no part in decimal notation, or one digit too many, is an error and not the default.

* `Spells`, `Denotes`: what it is for a text to be an integer;
* `readInteger_eq_ok_iff`: reading finds exactly that;
* `Settings.SizeOf`, `Settings.LevelOf`: what the two settings mean;
* `Settings.meaning`: they mean that, with the exception of the log levels that cannot be read.
-/

namespace RangeCalc

/-! ## Integers -/

/-- A text of digits, with at most one underscore between neighbours. -/
inductive Spells : Text → (digits : Text) → Prop
  | last {d : Char} (digit : isDigit d = true) : Spells [d] [d]
  | more {d : Char} {text digits : Text} (digit : isDigit d = true) (rest : Spells text digits) :
    Spells (d :: text) (d :: digits)
  | underscore {d : Char} {text digits : Text} (digit : isDigit d = true)
    (rest : Spells text digits) : Spells (d :: '_' :: text) (d :: digits)

/-- A text is an integer: but for the blanks around it, it is a sign or none and digits, which are
not too many. -/
inductive Denotes (text : Text) : Int → Prop
  | unsigned {digits : Text} (body : Spells text.trim digits)
    (few : digits.length ≤ maxIntegerDigits) : Denotes text (readDigits digits)
  | positive {rest digits : Text} (sign : text.trim = '+' :: rest) (body : Spells rest digits)
    (few : digits.length ≤ maxIntegerDigits) : Denotes text (readDigits digits)
  | negative {rest digits : Text} (sign : text.trim = '-' :: rest) (body : Spells rest digits)
    (few : digits.length ≤ maxIntegerDigits) : Denotes text (-readDigits digits)

/-- The blanks around a text do not count. -/
theorem denotes_congr {text text' : Text} (h : text.trim = text'.trim) {n : Int} :
    Denotes text n ↔ Denotes text' n := by
  have mono {text text' : Text} (h : text.trim = text'.trim) (d : Denotes text n) :
      Denotes text' n := by
    cases d with
    | unsigned body few => exact .unsigned (h ▸ body) few
    | positive sign body few => exact .positive (h ▸ sign) body few
    | negative sign body few => exact .negative (h ▸ sign) body few
  exact ⟨mono h, mono h.symm⟩

namespace Spells

variable {text digits : Text}

/-- What is spelled starts with a digit. -/
theorem exists_cons (h : Spells text digits) : ∃ d rest, text = d :: rest ∧ isDigit d = true := by
  cases h with
  | last digit | more digit _ | underscore digit _ => exact ⟨_, _, rfl, digit⟩

theorem ne_cons (h : Spells text digits) {c : Char} (hc : isDigit c = false) (rest : Text) :
    text ≠ c :: rest := by
  obtain ⟨d, others, rfl, digit⟩ := h.exists_cons
  rintro ⟨⟩
  rw [hc] at digit
  cases digit

/-- Digits and underscores are all there is. -/
theorem mem (h : Spells text digits) : ∀ c ∈ text, (isDigit c || c == '_') = true := by
  induction h with
  | last digit => simp [digit]
  | more digit _ ih => simpa [digit] using ih
  | underscore digit _ ih => simpa [digit] using ih

/-- Digits alone spell themselves. -/
theorem of_forall (ne : text ≠ []) (h : ∀ c ∈ text, isDigit c = true) : Spells text text := by
  induction text with
  | nil => exact absurd rfl ne
  | cons d text ih =>
    obtain ⟨digit, others⟩ := List.forall_mem_cons.1 h
    cases text with
    | nil => exact .last digit
    | cons => exact .more digit (ih (List.cons_ne_nil _ _) others)

/-- Without underscores, a text spells itself. -/
theorem eq_of_not_mem (h : Spells text digits) (no_underscore : '_' ∉ text) :
    digits = text ∧ ∀ c ∈ text, isDigit c = true := by
  induction h with
  | last digit => exact ⟨rfl, List.forall_mem_singleton.2 digit⟩
  | more digit _ ih =>
    obtain ⟨rfl, others⟩ := ih fun mem => no_underscore (List.mem_cons_of_mem _ mem)
    exact ⟨rfl, List.forall_mem_cons.2 ⟨digit, others⟩⟩
  | underscore => simp at no_underscore

end Spells

theorem digitsOnly?_eq_some_iff {text digits : Text} :
    digitsOnly? text = some digits ↔ Spells text digits := by
  constructor
  · intro h
    fun_induction digitsOnly? text generalizing digits with
    | case1 => cases h
    | case2 c digit =>
      cases h
      exact .last digit
    | case3 => cases h
    | case4 c rest digit ih =>
      obtain ⟨others, spelled, rfl⟩ := Option.map_eq_some_iff.1 h
      exact .underscore digit (ih spelled)
    | case5 => cases h
    | case6 c rest _ _ digit ih =>
      obtain ⟨others, spelled, rfl⟩ := Option.map_eq_some_iff.1 h
      exact .more digit (ih spelled)
    | case7 => cases h
  · intro h
    induction h with
    | last digit => rw [digitsOnly?, if_pos digit]
    | @more d text digits digit rest ih =>
      have not_underscore := rest.ne_cons (c := '_') (by decide)
      obtain ⟨e, others, rfl, -⟩ := rest.exists_cons
      rw [digitsOnly?, if_pos digit, ih, Option.map_some]
      · nofun
      · exact not_underscore
    | underscore digit _ ih => rw [digitsOnly?, if_pos digit, ih, Option.map_some]

/-- A text of digits and underscores is not cut off before its end. -/
theorem spells_front_iff {body digits : Text} :
    (digitsOnly? (body.takeWhile fun c => isDigit c || c == '_') = some digits ∧
      body.length ≤ (body.takeWhile fun c => isDigit c || c == '_').length) ↔
      Spells body digits := by
  rw [digitsOnly?_eq_some_iff]
  constructor
  · rintro ⟨spelled, whole⟩
    have front := List.takeWhile_prefix (fun c => isDigit c || c == '_') (l := body)
    rwa [front.eq_of_length_le whole] at spelled
  · intro spelled
    have whole : (body.takeWhile fun c => isDigit c || c == '_') = body :=
      List.takeWhile_eq_self_iff.2 spelled.mem
    rw [whole]
    exact ⟨spelled, Nat.le_refl _⟩

/-- A number is told by its sign and by the digits behind it. -/
theorem denotes_iff {text body : Text} {negative : Bool} {n : Int}
    (h : text.trim = '-' :: body ∧ negative = true ∨ text.trim = '+' :: body ∧ negative = false ∨
      text.trim = body ∧ negative = false ∧ (∀ rest, body ≠ '-' :: rest) ∧
        ∀ rest, body ≠ '+' :: rest) :
    Denotes text n ↔ ∃ digits, Spells body digits ∧ digits.length ≤ maxIntegerDigits ∧
      (if negative then -(readDigits digits : Int) else readDigits digits) = n := by
  have unsigned {digits : Text} (sign : Char) (hsign : isDigit sign = false)
      (eq : text.trim = sign :: body) : ¬Spells text.trim digits :=
    fun spelled => spelled.ne_cons hsign body eq
  rcases h with ⟨eq, rfl⟩ | ⟨eq, rfl⟩ | ⟨eq, rfl, not_minus, not_plus⟩
  · constructor
    · rintro (⟨spelled, few⟩ | ⟨sign, spelled, few⟩ | ⟨sign, spelled, few⟩)
      · exact absurd spelled (unsigned '-' (by decide) eq)
      · rw [eq] at sign
        cases sign
      · rw [eq] at sign
        cases sign
        exact ⟨_, spelled, few, rfl⟩
    · rintro ⟨digits, spelled, few, rfl⟩
      exact .negative eq spelled few
  · constructor
    · rintro (⟨spelled, few⟩ | ⟨sign, spelled, few⟩ | ⟨sign, spelled, few⟩)
      · exact absurd spelled (unsigned '+' (by decide) eq)
      · rw [eq] at sign
        cases sign
        exact ⟨_, spelled, few, rfl⟩
      · rw [eq] at sign
        cases sign
    · rintro ⟨digits, spelled, few, rfl⟩
      exact .positive eq spelled few
  · constructor
    · rintro (⟨spelled, few⟩ | ⟨sign, spelled, few⟩ | ⟨sign, spelled, few⟩)
      · exact ⟨_, eq ▸ spelled, few, rfl⟩
      · exact absurd (eq.symm.trans sign) (not_plus _)
      · exact absurd (eq.symm.trans sign) (not_minus _)
    · rintro ⟨digits, spelled, few, rfl⟩
      exact .unsigned (eq ▸ spelled) few

/-- Reading finds the integer that a text is, if it is one. -/
theorem readInteger_eq_ok_iff {text : Text} {n : Int} :
    readInteger text = .ok n ↔ Denotes text n := by
  rw [readInteger]
  split
  rename_i negative body signed
  have sign : text.trim = '-' :: body ∧ negative = true ∨
      text.trim = '+' :: body ∧ negative = false ∨
      text.trim = body ∧ negative = false ∧ (∀ rest, body ≠ '-' :: rest) ∧
        ∀ rest, body ≠ '+' :: rest := by
    split at signed
    · cases signed
      exact .inl ⟨by assumption, rfl⟩
    · cases signed
      exact .inr (.inl ⟨by assumption, rfl⟩)
    · rename_i not_minus not_plus
      cases signed
      exact .inr (.inr ⟨rfl, rfl, not_minus, not_plus⟩)
  rw [denotes_iff sign]
  simp only [← spells_front_iff]
  generalize (body.takeWhile fun c => isDigit c || c == '_') = front
  cases digitsOnly? front with
  | none => simp
  | some digits =>
    simp only [Option.some.injEq]
    constructor
    · intro read
      split at read
      · cases read
      · split at read
        · cases read
        · cases read
          exact ⟨digits, ⟨rfl, by omega⟩, by omega, rfl⟩
    · rintro ⟨_, ⟨rfl, whole⟩, few, rfl⟩
      rw [if_neg (by omega), if_neg (by omega)]

namespace Settings

/-! ## The meaning of the settings -/

/-- How many events a setting says to keep. -/
inductive SizeOf : Option Text → Nat → Prop
  | unset : SizeOf none defaultReplay
  /-- Below zero counts as zero. -/
  | number {text : Text} {n : Int} (h : Denotes text n) : SizeOf (some text) n.toNat
  | unusable {text : Text} (h : ∀ n, ¬Denotes text n) : SizeOf (some text) defaultReplay

/-- A text is taken for a number: but for the blanks around it, it consists of characters with a digit
value. -/
def LooksNumeric (text : Text) : Prop := text.trim ≠ [] ∧ ∀ c ∈ text.trim, isDigitLike c = true

/-- The log level that a setting says, where there is a default. -/
inductive LevelOf : Option Text → (default : Int) → Int → Prop
  | unset {default : Int} : LevelOf none default default
  | number {text : Text} {default n : Int} (numeric : LooksNumeric text) (h : Denotes text n) :
    LevelOf (some text) default n
  | named {text : Text} {default n : Int} (h : (text.trim.map capital, n) ∈ levelNames) :
    LevelOf (some text) default n
  | unusable {text : Text} {default : Int} (not_numeric : ¬LooksNumeric text)
    (unnamed : ∀ n, (text.trim.map capital, n) ∉ levelNames) : LevelOf (some text) default default

variable {text : Text}

theorem sizeOf_replaySize (settings : Settings) : SizeOf settings.replay settings.replaySize := by
  rw [replaySize]
  split
  · rename_i unset
    exact unset ▸ .unset
  · rename_i text set
    rw [set]
    split
    · rename_i n read
      exact .number (readInteger_eq_ok_iff.1 read)
    · rename_i error read
      refine .unusable fun n denotes => ?_
      rw [readInteger_eq_ok_iff.2 denotes] at read
      cases read

/-- A character with a digit value is neither a blank nor an underscore nor a sign. -/
theorem LooksNumeric.not_mem (h : LooksNumeric text) {c : Char} (hc : isDigitLike c = false) :
    c ∉ text.trim := by
  intro mem
  rw [h.2 c mem] at hc
  cases hc

theorem LooksNumeric.trim_trim (h : LooksNumeric text) : text.trim.trim = text.trim :=
  Text.trim_eq_self fun c mem => Text.not_isBlank_of_class rfl (h.2 c mem)

/-- What is taken for a number is one if it consists of digits, and not of too many. -/
theorem LooksNumeric.denotes_iff (h : LooksNumeric text) :
    (∃ n, Denotes text n) ↔
      (∀ c ∈ text.trim, isDigit c = true) ∧ text.trim.length ≤ maxIntegerDigits := by
  constructor
  · rintro ⟨n, ⟨spelled, few⟩ | ⟨sign, -, -⟩ | ⟨sign, -, -⟩⟩
    · obtain ⟨rfl, digits⟩ := spelled.eq_of_not_mem (h.not_mem (by decide))
      exact ⟨digits, few⟩
    · exact absurd (sign ▸ List.mem_cons_self) (h.not_mem (c := '+') (by decide))
    · exact absurd (sign ▸ List.mem_cons_self) (h.not_mem (c := '-') (by decide))
  · rintro ⟨digits, few⟩
    exact ⟨_, .unsigned (.of_forall h.1 digits) few⟩

/-- A character with a digit value is no letter. -/
theorem capital_of_isDigitLike {c : Char} (h : isDigitLike c = true) : capital c = c := by
  have letters : ∀ code ∈ List.range' 97 26, isDigitLike (Char.ofNat code) = false := by decide
  have not_small : ¬(c.val ≥ 'a'.val ∧ c.val ≤ 'z'.val) := by
    rintro ⟨low, high⟩
    have mem : c.toNat ∈ List.range' 97 26 := by
      rw [List.mem_range'_1]
      exact ⟨low, Nat.lt_succ_of_le high⟩
    have none := letters _ mem
    rw [Char.ofNat_toNat, h] at none
    cases none
  have dotless : c ≠ 'ı' := by
    rintro rfl
    cases h
  have long : c ≠ 'ſ' := by
    rintro rfl
    cases h
  rw [capital, if_neg dotless, if_neg long, Char.toUpper, dif_neg not_small]

/-- What is taken for a number is not the name of a level. -/
theorem LooksNumeric.unnamed (h : LooksNumeric text) (n : Int) :
    (text.trim.map capital, n) ∉ levelNames := by
  have letters : ∀ name ∈ levelNames, name.1.any isDigitLike = false := by decide
  intro named
  obtain ⟨c, mem⟩ := List.exists_mem_of_ne_nil _ h.1
  have digit := h.2 c mem
  have letter := List.any_eq_false.1 (letters _ named) (capital c) (List.mem_map_of_mem mem)
  rw [capital_of_isDigitLike digit] at letter
  exact letter digit

/-- No level has two names that are spelled alike. -/
theorem lookup_levelNames_iff {word : Text} {n : Int} :
    levelNames.lookup word = some n ↔ (word, n) ∈ levelNames := by
  rw [List.lookup_eq_some_iff]
  constructor
  · rintro ⟨before, after, eq, -⟩
    simp [eq]
  · intro mem
    obtain ⟨before, after, eq⟩ := List.append_of_mem mem
    have distinct : (levelNames.map Prod.fst).Nodup := by decide
    refine ⟨before, after, eq, fun other earlier => ?_⟩
    rw [eq, List.map_append, List.nodup_append] at distinct
    have ne := distinct.2.2 _ (List.mem_map_of_mem earlier) word (by simp)
    simpa using ne.symm

/-- The log level of a text, be it empty or not. -/
theorem logLevel_of_some {settings : Settings} (h : settings.level = some text) (default : Int) :
    (LooksNumeric text ∧ settings.logLevel default = readInteger text.trim) ∨
      (¬LooksNumeric text ∧ settings.logLevel default =
        .ok ((levelNames.lookup (text.trim.map capital)).getD default)) := by
  have numeric_iff : (!text.trim.isEmpty && text.trim.all isDigitLike) = true ↔
      LooksNumeric text := by
    simp [LooksNumeric]
  cases text with
  | nil => exact .inr ⟨fun numeric => numeric.1 rfl, by rw [logLevel, h]; rfl⟩
  | cons c rest =>
    rw [logLevel, h]
    by_cases numeric : LooksNumeric (c :: rest)
    · exact .inl ⟨numeric, if_pos (numeric_iff.2 numeric)⟩
    · exact .inr ⟨numeric, if_neg (mt numeric_iff.1 numeric)⟩

theorem logLevel_eq_ok_iff {settings : Settings} {default level : Int} :
    settings.logLevel default = .ok level ↔ LevelOf settings.level default level := by
  cases set : settings.level with
  | none =>
    rw [logLevel, set]
    constructor
    · rintro ⟨⟩
      exact .unset
    · rintro ⟨⟩
      rfl
  | some text =>
    rcases logLevel_of_some set default with ⟨numeric, eq⟩ | ⟨not_numeric, eq⟩
    · rw [eq, readInteger_eq_ok_iff, denotes_congr numeric.trim_trim]
      constructor
      · exact .number numeric
      · rintro (- | ⟨-, denotes⟩ | named | ⟨not_numeric, -⟩)
        · exact denotes
        · exact absurd named (numeric.unnamed _)
        · exact absurd numeric not_numeric
    · rw [eq, Except.ok.injEq]
      constructor
      · rintro rfl
        cases found : levelNames.lookup (text.trim.map capital) with
        | none =>
          refine .unusable not_numeric fun n named => ?_
          rw [lookup_levelNames_iff.2 named] at found
          cases found
        | some n => exact .named (lookup_levelNames_iff.1 found)
      · rintro (- | ⟨numeric, -⟩ | named | ⟨-, unnamed⟩)
        · exact absurd numeric not_numeric
        · rw [lookup_levelNames_iff.2 named, Option.getD_some]
        · cases found : levelNames.lookup (text.trim.map capital) with
          | none => rfl
          | some n => exact absurd (lookup_levelNames_iff.1 found) (unnamed n)

/-- The one way to have no log level: what is taken for a number is none. -/
theorem exists_logLevel_eq_error_iff {settings : Settings} {default : Int} :
    (∃ error, settings.logLevel default = .error error) ↔
      ∃ text, settings.level = some text ∧ LooksNumeric text ∧ ∀ n, ¬Denotes text n := by
  constructor
  · rintro ⟨error, failed⟩
    cases set : settings.level with
    | none => simp [logLevel, set] at failed
    | some text =>
      rcases logLevel_of_some set default with ⟨numeric, eq⟩ | ⟨-, eq⟩
      · refine ⟨text, rfl, numeric, fun n denotes => ?_⟩
        rw [← denotes_congr numeric.trim_trim, ← readInteger_eq_ok_iff, ← eq, failed] at denotes
        cases denotes
      · rw [eq] at failed
        cases failed
  · rintro ⟨text, set, numeric, no_number⟩
    cases found : settings.logLevel default with
    | error error => exact ⟨error, rfl⟩
    | ok level =>
      rw [logLevel_eq_ok_iff, set] at found
      rcases found with - | ⟨-, denotes⟩ | named | ⟨not_numeric, -⟩
      · exact absurd denotes (no_number _)
      · exact absurd named (numeric.unnamed _)
      · exact absurd numeric not_numeric

/-- The number of events to keep is always found, and is the number that the setting is or the
default. The log level is the number that the setting is, the level that it names or the default, but
for one case: it is not found if the setting consists of characters with a digit value, one of which
is no decimal digit or which are too many. -/
theorem meaning (settings : Settings) (default : Int) :
    SizeOf settings.replay settings.replaySize ∧
      (∀ level, settings.logLevel default = .ok level ↔ LevelOf settings.level default level) ∧
      ((∃ error, settings.logLevel default = .error error) ↔
        ∃ text, settings.level = some text ∧ LooksNumeric text ∧
          ((∃ c ∈ text.trim, isDigit c = false) ∨ maxIntegerDigits < text.trim.length)) := by
  refine ⟨sizeOf_replaySize settings, fun level => logLevel_eq_ok_iff, ?_⟩
  rw [exists_logLevel_eq_error_iff]
  refine exists_congr fun text => and_congr_right fun _ => and_congr_right fun numeric => ?_
  rw [← not_exists, numeric.denotes_iff, Classical.not_and_iff_not_or_not, Nat.not_le]
  simp

/-- A superscript two has a digit value and is no integer: it is an error, and not the default. -/
theorem logLevel_superscript :
    logLevel ⟨none, some "²", none⟩ defaultLevel = .error (.invalid "²") := rfl

end Settings

end RangeCalc
