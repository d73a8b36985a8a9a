import RangeCalc.CommandLine

/-!
# The program

The outermost layer: it fetches arguments, settings, input and file, asks the library what to write
and writes it. It decides nothing itself.
-/

namespace RangeCalc.Main

/-- Writes to the two channels of the terminal. -/
def write (screen : Screen) : IO Unit := do
  IO.print (String.ofList screen.out)
  IO.eprint (String.ofList screen.err)

/-- The settings of the environment. -/
def settings : IO Settings := do
  let get (name : String) : IO (Option Text) := do
    return (← IO.getEnv name).map String.toList
  return ⟨← get "SEQLANG_REPLAY", ← get "SEQLANG_LOG_LEVEL", ← get "SEQLANG_DEBUG_PY_TRACE"⟩

/-- All of the input. -/
partial def readAll (input : IO.FS.Stream) (before : String) : IO String := do
  let line ← input.getLine
  if line.isEmpty then return before else readAll input (before ++ line)

/-- The bytes of a file, `none` if it cannot be read. -/
def readFile? (name : Text) : IO (Option (List UInt8)) := do
  try
    let bytes ← IO.FS.readBinFile (String.ofList name)
    return some bytes.toList
  catch _ => return none

/-- Writes what comes of an input at the prompt. -/
def writeReply (reply : Prompt.Reply) : IO Unit :=
  match reply with
  | .waiting _ => pure ()
  | .ended screen cleared _ => do
    if cleared then IO.print "\x1b[2J\x1b[H"
    write screen

/-- Runs the prompt on lines of input: each is typed and ended with the Enter key. -/
partial def prompt (input : IO.FS.Stream) (state : Prompt.State) : IO Unit := do
  IO.print (if state.buffer.text.isEmpty then ">>> " else "... ")
  (← IO.getStdout).flush
  let line ← input.getLine
  if line.isEmpty then write Prompt.farewell
  else
    let typed := line.toList.filter (· != '\n')
    let (_, state) := Prompt.answer state (.typed typed)
    let (reply, state) := Prompt.answer state .enter
    writeReply reply
    prompt input state

/-- Ends a call. -/
def finish (result : CommandLine.Result) : IO UInt32 := do
  write result.screen
  match result.exit with
  | .ok .normal => return 0
  | .ok (.code n) => return n.toUInt32
  | .ok (.message text) =>
    IO.eprintln (String.ofList text)
    return 1
  | .error (.level e) =>
    IO.eprintln (String.ofList e.message)
    return 1
  | .error (.file e) =>
    IO.eprintln (String.ofList e.message)
    return 1

end RangeCalc.Main

open RangeCalc in
/-- The program. The prompt needs its input line by line, everything else takes it as a whole. -/
def main (arguments : List String) : IO UInt32 := do
  let settings ← Main.settings
  let arguments := arguments.map String.toList
  match settings.logLevel Settings.defaultLevel, CommandLine.parse arguments with
  | .ok _, .ok .prompt =>
    Main.write Prompt.banner
    Main.prompt (← IO.getStdin) ⟨{ Prompt.Switches.off with trace := settings.tracing }, .empty⟩
    return 0
  | _, .ok (.program _ _ source) =>
    match CommandLine.fileName? source with
    | none =>
      let input ← Main.readAll (← IO.getStdin) ""
      Main.finish (CommandLine.perform settings arguments input.toList fun _ => none)
    | some name =>
      let file ← Main.readFile? name
      Main.finish (CommandLine.perform settings arguments [] fun _ => file)
  | _, _ => Main.finish (CommandLine.perform settings arguments [] fun _ => none)
