import RangeCalc.Text.Blank
import RangeCalc.Text.Digit
import RangeCalc.Text.Quoted

/-!
# Settings

Three settings are taken from the environment, as texts that may be missing: how many events a stream
keeps, the least level of the log lines that are shown, and whether failures are traced. A text that
is of no use gives the default, with one exception: a log level of characters that have a digit value
has to be an integer.

* `readInteger` reads an integer in decimal notation;
* `Settings.replaySize`, `Settings.logLevel` and `Settings.tracing` are the three settings.
-/

namespace RangeCalc

/-- Why a text is no integer. -/
inductive IntegerError
  /-- It is none. -/
  | invalid (text : Text)
  /-- It has too many digits. -/
  | tooLong (digits : Nat)
  deriving DecidableEq

/-- The most digits an integer may have. -/
def maxIntegerDigits : Nat := 4300

/-- How much of a quoted text is shown. -/
def maxQuotedLength : Nat := 200

/-- The wording of an integer error. A long text is not shown to its end. -/
def IntegerError.message : IntegerError → Text
  | invalid text => "invalid literal for int() with base 10: " ++ text.quoted.take maxQuotedLength
  | tooLong digits =>
    "Exceeds the limit (" ++ Text.ofNat maxIntegerDigits ++
      " digits) for integer string conversion: value has " ++ Text.ofNat digits ++
      " digits; use sys.set_int_max_str_digits() to increase the limit"

/-- The digits of a text that has digits only, with single underscores between them allowed. -/
def digitsOnly? : Text → Option Text
  | [] => none
  | [c] => if isDigit c then some [c] else none
  | c :: '_' :: rest => if isDigit c then (digitsOnly? rest).map (c :: ·) else none
  | c :: rest => if isDigit c then (digitsOnly? rest).map (c :: ·) else none

/-- Reads an integer: blanks around it do not count, a sign may come first. The digits are counted
before anything is made of what stands behind them. -/
def readInteger (text : Text) : Except IntegerError Int :=
  let (negative, body) := match text.trim with
    | '-' :: rest => (true, rest)
    | '+' :: rest => (false, rest)
    | rest => (false, rest)
  let front := body.takeWhile fun c => isDigit c || c == '_'
  match digitsOnly? front with
  | none => .error (.invalid text)
  | some digits =>
    if maxIntegerDigits < digits.length then .error (.tooLong digits.length)
    else if front.length < body.length then .error (.invalid text)
    else .ok (if negative then -(readDigits digits : Int) else readDigits digits)

/-- The settings as they stand in the environment. -/
structure Settings where
  replay : Option Text
  level : Option Text
  trace : Option Text

namespace Settings

/-- Nothing is set. -/
def unset : Settings := ⟨none, none, none⟩

/-- How many events are kept if nothing is said. -/
def defaultReplay : Nat := 100

/-- How many events a stream keeps; below zero counts as zero. -/
def replaySize (settings : Settings) : Nat :=
  match settings.replay with
  | none => defaultReplay
  | some text =>
    match readInteger text with
    | .ok n => n.toNat
    | .error _ => defaultReplay

/-- The log level if nothing is said: warnings and worse. -/
def defaultLevel : Int := 30

/-- The letter as a capital, if that is an ASCII letter: besides the small ASCII letters these are the
dotless i and the long s. -/
def capital (c : Char) : Char :=
  if c = 'ı' then 'I' else if c = 'ſ' then 'S' else c.toUpper

/-- The log levels that have a name. -/
def levelNames : List (Text × Int) := [
  ("CRITICAL", 50), ("FATAL", 50), ("ERROR", 40), ("WARNING", 30), ("WARN", 30), ("INFO", 20),
  ("DEBUG", 10), ("NOTSET", 0)]

/-- The least level of the log lines that are shown. -/
def logLevel (settings : Settings) (default : Int) : Except IntegerError Int :=
  match settings.level with
  | none => .ok default
  | some [] => .ok default
  | some text =>
    let word := text.trim
    if !word.isEmpty && word.all isDigitLike then readInteger word
    else .ok ((levelNames.lookup (word.map capital)).getD default)

/-- Whether failures are traced. -/
def tracing (settings : Settings) : Bool :=
  let word := (settings.trace.getD []).trim.lower
  word = ("1" : Text) ∨ word = ("true" : Text) ∨ word = ("yes" : Text) ∨ word = ("on" : Text)

end Settings

end RangeCalc
