import RangeCalc.Prompt
import RangeCalc.Settings
import RangeCalc.Text.Utf8

/-!
# The command line

The program is called with at most one source and with options: to list the tokens, to show the
outline, or to start the prompt. The source is the name of a file or, if there is no such file, the
program itself; without one, or for `-`, it is read from the input.

* `CommandLine.parse` reads the arguments;
* `CommandLine.perform` says what a call writes and how it ends.
-/

namespace RangeCalc.CommandLine

/-- What a call asks for. -/
inductive Invocation
  /-- The prompt. -/
  | prompt
  /-- To show the tokens or the outline of a program, or, if neither, to run it. -/
  | program (tokens outline : Bool) (source : Option Text)

/-- How a call ends. -/
inductive Exit
  | normal
  | code (n : Nat)
  /-- With a message instead of a code. -/
  | message (text : Text)
  deriving DecidableEq

/-- Why a call cannot be carried out at all. -/
inductive Refusal
  /-- The log level that is set is no integer. -/
  | level (error : IntegerError)
  /-- The file is no text. -/
  | file (error : Utf8.Error)
  deriving DecidableEq

/-- Reads the arguments, the options given so far being `tokens` and `outline`. The option for the
prompt counts at once, and a second source is refused. -/
def parseFrom (tokens outline : Bool) (source : Option Text) : List Text → Except Exit Invocation
  | [] => .ok (.program tokens outline source)
  | argument :: arguments =>
    if argument = ("--tokens" : Text) then parseFrom true outline source arguments
    else if argument = ("--ast" : Text) then parseFrom tokens true source arguments
    else if argument = ("--repl" : Text) then .ok .prompt
    else
      match source with
      | none => parseFrom tokens outline (some argument) arguments
      | some _ => .error (.message ("Unexpected argument: " ++ argument))

/-- Reads the arguments. -/
def parse (arguments : List Text) : Except Exit Invocation := parseFrom false false none arguments

/-- The name of the file that a source may be, `none` if it stands for the input. -/
def fileName? : Option Text → Option Text
  | none => none
  | some [] => none
  | some ['-'] => none
  | some name => some name

/-- The text of a source, given the input and the bytes of the file of that name, if there is one. -/
def sourceText (source : Option Text) (input : Text) (file : Option (List UInt8)) :
    Except Refusal (Except Exit Text) :=
  match fileName? source with
  | none =>
    if input.isEmpty then .ok (.error (.message "No input provided on stdin"))
    else .ok (.ok input.universalLines)
  | some name =>
    match file with
    | none => .ok (.ok name)
    | some bytes =>
      match Utf8.decode bytes with
      | .ok text => .ok (.ok text.universalLines)
      | .error e => .error (.file e)

/-- What a call writes, and how it ends. -/
structure Result where
  screen : Screen
  exit : Except Refusal Exit

/-- The events that a subscription to a run, made before its start and ended after its end, has
received. -/
def collect (text : Text) : List Event :=
  match ((EventStream.fresh 0).subscribe false).emitAll? (Run.eventsOf text) with
  | some stream => ((stream.unsubscribe 0).drain 0).1
  | none => []

/-- Runs a program. Nothing is written before the run is over. -/
def runProgram (text : Text) : Result :=
  let events := collect text
  ⟨.ofEvents events, .ok (if hasError events then .code 1 else .normal)⟩

/-- Shows the tokens or the outline of a program. -/
def showProgram (tokens outline : Bool) (text : Text) : Result :=
  let listing : Text := if tokens then Token.listingOf text else []
  if outline then
    match Program.ofText text with
    | .ok program => ⟨⟨listing ++ program.outline, [], 0⟩, .ok .normal⟩
    | .error failure => ⟨⟨listing, [], 0⟩, .ok (.message ("Error: " ++ failure.cause.message))⟩
  else ⟨⟨listing, [], 0⟩, .ok .normal⟩

/-- Carries out what is asked for; the prompt finds its input ended. If failures are traced, that of
a run is. -/
def Invocation.perform (tracing : Bool) (input : Text) (file : Text → Option (List UInt8)) :
    Invocation → Result
  | .prompt => ⟨Prompt.banner ++ Prompt.farewell, .ok .normal⟩
  | .program tokens outline source =>
    match sourceText source input ((fileName? source).bind file) with
    | .error refusal => ⟨.blank, .error refusal⟩
    | .ok (.error exit) => ⟨.blank, .ok exit⟩
    | .ok (.ok text) =>
      if tokens || outline then showProgram tokens outline text
      else
        let result := runProgram text
        { result with screen := Run.traceOf tracing text ++ result.screen }

/-- Carries out a call. The log level is looked at before the arguments. -/
def perform (settings : Settings) (arguments : List Text) (input : Text)
    (file : Text → Option (List UInt8)) : Result :=
  match settings.logLevel Settings.defaultLevel with
  | .error e => ⟨.blank, .error (.level e)⟩
  | .ok _ =>
    match parse arguments with
    | .error exit => ⟨.blank, .ok exit⟩
    | .ok invocation => invocation.perform settings.tracing input file

end RangeCalc.CommandLine
