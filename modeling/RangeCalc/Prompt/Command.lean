import RangeCalc.Event
import RangeCalc.Text.Blank

/-!
# Commands at the prompt

A submission that starts with a slash is a command. One clears the screen; the others switch
something on or off: the tracing of failures, the listing of tokens and the outline of the program
before each run. An argument says which, and without one the switch is turned over.

* `Prompt.command` carries out a command;
* `Prompt.completions` are the commands that a beginning can be completed to.
-/

namespace RangeCalc.Prompt

/-- What can be switched on and off at the prompt. -/
structure Switches where
  trace : Bool
  tokens : Bool
  outline : Bool
  deriving DecidableEq

/-- All is off. -/
def Switches.off : Switches := ⟨false, false, false⟩

/-- The commands, with their descriptions. -/
def commands : List (Text × Text) := [
  ("/clear", "Clear the terminal screen"),
  ("/py-traceback", "Toggle Python traceback on errors"),
  ("/tokens", "Toggle printing the token list before each run"),
  ("/ast", "Toggle printing the parse tree before each run")]

/-- A completion: the command, how far back from the cursor it starts, and its description. -/
structure Completion where
  command : Text
  back : Nat
  description : Text
  deriving DecidableEq

/-- The completions of the text before the cursor. Only a text that starts with a slash has any. -/
def completions (before : Text) : List Completion :=
  if before.head? = some '/' then
    (commands.filter fun (name, _) => before.isPrefixOf name).map
      fun (name, description) => ⟨name, before.length, description⟩
  else []

/-- The words that switch on. -/
def onWords : List Text := ["on", "1", "true", "yes"]

/-- The words that switch off. -/
def offWords : List Text := ["off", "0", "false", "no"]

/-- The state of a switch after a command with this argument, `none` if the argument says nothing. -/
def switched? (current : Bool) (argument : Text) : Option Bool :=
  let word := argument.lower
  if onWords.contains word then some true
  else if offWords.contains word then some false
  else if word.isEmpty then some (!current)
  else none

/-- What a command does. -/
structure Effect where
  screen : Screen
  /-- Whether the terminal is cleared. -/
  cleared : Bool
  switches : Switches

/-- The line that tells how to use a command. -/
def usage (name : Text) : Screen := .errLine ("Usage: " ++ name ++ " [on|off]")

/-- The line that tells the state of a switch. -/
def stateLine (name : Text) (state : Bool) : Screen :=
  .outLine (name ++ ": " ++ (if state then "on" else "off"))

/-- Carries out a command for a switch. -/
def toggle (switches : Switches) (name title argument : Text) (current : Bool)
    (update : Bool → Switches) : Effect :=
  match switched? current argument with
  | some state => ⟨stateLine title state, false, update state⟩
  | none => ⟨usage name, false, switches⟩

/-- Carries out a line that is a command; `none` if it is none. -/
def command? (switches : Switches) (line : Text) : Option Effect :=
  let stripped := line.trim
  if stripped.head? ≠ some '/' then none
  else
    let (name, argument) := stripped.firstWord
    some <|
      if name = ("/clear" : Text) then ⟨.blank, true, switches⟩
      else if name = ("/py-traceback" : Text) then
        toggle switches name "Python traceback" argument switches.trace
          fun state => { switches with trace := state }
      else if name = ("/tokens" : Text) then
        toggle switches name "tokens" argument switches.tokens
          fun state => { switches with tokens := state }
      else if name = ("/ast" : Text) then
        toggle switches name "ast" argument switches.outline
          fun state => { switches with outline := state }
      else ⟨.errLine ("Unknown command: " ++ name), false, switches⟩

end RangeCalc.Prompt
