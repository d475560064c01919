import TinyScript.CommandLine.Run

/-!
# The executable

Reads and writes for real: arguments, variables, script files, standard input and the
two output streams. Everything that is decided is decided in the imported modules.
-/

namespace TinyScript.Main

open CommandLine

/-- What the system says about a file it cannot read; its codes come with either sign. -/
def fileError (e : IO.Error) : FileError :=
  match e with
  | .noFileOrDirectory .. => .notFound
  | .inappropriateType _ code _ =>
    if code = 20 ∨ 0 - code = 20 then .notDirectory
    else if code = 21 ∨ 0 - code = 21 then .isDirectory
    else .other (toString e)
  | e => .other (toString e)

/-- The bytes of a script file. -/
def readScript (path : String) : IO (Except FileError (List UInt8)) := do
  try
    return .ok (← IO.FS.readBinFile path).toList
  catch e =>
    return .error (fileError e)

/-- Writes a text and makes sure that it is seen. -/
def put (stream : IO.FS.Stream) (text : String) : IO Unit := do
  stream.putStr text
  stream.flush

/-- Writes what a program has to say and gives its exit code. -/
def complete (c : Completion) : IO UInt32 := do
  put (← IO.getStdout) c.stdout
  put (← IO.getStderr) c.stderr
  return c.exit.toUInt32

/-- The next line of a stream with its line end, last byte first; no byte at the end. -/
partial def readLine (stream : IO.FS.Stream) (acc : List UInt8) : IO (List UInt8) := do
  match (← stream.read 1).toList with
  | [] => return acc
  | byte :: _ => if byte = Text.lineFeed then return byte :: acc else readLine stream (byte :: acc)

/-- Holds a conversation line by line. -/
partial def converse (w : Setting) (s : Session Terminal) : IO UInt32 := do
  let stdout ← IO.getStdout
  let stderr ← IO.getStderr
  put stdout Prompt.mark
  match Text.lines (← readLine (← IO.getStdin) []).reverse with
  | [] =>
    put stderr (w.log [endLog])
    return 0
  | line :: _ =>
    match Prompt.respond s line with
    | .leave => return 0
    | .notText =>
      put stderr (brokenText PromptError.notText.message)
      return brokenExit.toUInt32
    | .ran outcome s =>
      let (reports, sink) := s.sink.take
      put stdout s.machine.output.text
      put stderr (reports ++ w.log (outcomeLog outcome))
      converse w ⟨{ s.machine with output := s.machine.output.clear }, sink⟩

/-- Does what the arguments ask for. -/
def start (w : Setting) (args : List String) : IO UInt32 := do
  match Options.parse args with
  | .error e => complete (usage e)
  | .ok options =>
    match options.command with
    | .prompt =>
      put (← IO.getStdout) Prompt.banner
      converse w (newSession options.color w.tty)
    | .script path => complete (runScript w options.color path (← readScript path))
    | .explain code => complete (explain code)
    | .help => complete ⟨0, helpText, ""⟩
    | .version => complete ⟨0, versionText, ""⟩

/-- The variables that matter, as they are set. -/
def readVariables : IO (List (String × String)) :=
  filterVariables.filterMapM fun name => do
    return (← IO.getEnv name).map fun value => (name, value)

end TinyScript.Main

/-- Runs the program on its arguments. -/
def main (args : List String) : IO UInt32 := do
  let assigned ← TinyScript.Main.readVariables
  let tty ← (← IO.getStderr).isTty
  TinyScript.Main.start ⟨fun name => assigned.lookup name, tty⟩ args
