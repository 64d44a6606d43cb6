import CommandShell.CommandLine

/-! The program on the streams, variables and files of its process.
It starts no other processes, so no programs are found on the search path. -/
namespace CommandShell
namespace Main

def ioError : IO.Error → IoError
  | .noFileOrDirectory _ _ _ => .notFound
  | .permissionDenied _ _ _ => .denied
  | .inappropriateType _ _ _ => .isDirectory
  | _ => .notFound

def readFile (name : String) : IO (Except IoError Bytes) := do
  try return .ok (← IO.FS.readBinFile name).data.toList
  catch e => return .error (ioError e)

def environment : IO (List (String × String)) := do
  match ← readFile "/proc/self/environ" with
  | .ok bytes => return ((Text.decode bytes).toList.splitOn '\x00').filterMap fun text =>
    Variables.split? (String.ofList text)
  | .error _ => return []

def surroundings (startup : Option String) : IO Surroundings := do
  let content ← match startup with
    | some name => readFile name
    | none => pure (.error .notFound)
  return {
    environment := ← environment
    disk := .empty
    read := fun _ => content
    programs := fun _ => ∅
    engine := ⟨Action.command,fun _ _ _ _ => .error .notFound⟩ }

def send (stream : IO.FS.Stream) (bytes : Bytes) : IO Unit := do
  stream.write ⟨bytes.toArray⟩
  stream.flush

def advance (shell : Shell Action) (step : CommandLine.Step) :
    IO (Option Int32 × Shell Action) := do
  let act : Act Action (Option Int32 × Bytes × Bytes) := do return (← step,← Act.takeWritten)
  match act shell with
  | none => throw (IO.userError "lines run too deep inside one another")
  | some ((code,output,errors),shell) =>
    send (← IO.getStdout) output
    send (← IO.getStderr) errors
    return (code,shell)

/-- Reads lines and runs them until one ends the session, or none are left. -/
partial def converse (s : Surroundings) (shell : Shell Action) : IO Int32 := do
  let stdin ← IO.getStdin
  if CommandLine.isPlain s || (← stdin.isTty) then
    send (← IO.getStdout) (Text.encode shell.session.config.prompt)
  let text ← stdin.getLine
  if text.isEmpty then return 0
  match ← advance shell (CommandLine.runTyped s (Typed.line text)) with
  | (some code,_) => return code
  | (none,shell) => converse s shell

def session (o : Options) : IO Int32 := do
  let s ← surroundings o.startup
  match ← advance (CommandLine.shell s o) (CommandLine.runStartup s o) with
  | (some code,_) => return code
  | (none,shell) =>
    match o.line with
    | none => converse s shell
    | some line => return (← advance shell (CommandLine.runGiven s line)).1.getD 0

end Main
end CommandShell

open CommandShell in
def main (args : List String) : IO UInt32 := do
  match Options.parse args with
  | .error fault =>
    Main.send (← IO.getStderr) (Text.encode (Options.report fault))
    return 1
  | .ok none =>
    Main.send (← IO.getStdout) (Text.encode (Options.usage.text ++ "\n"))
    return 0
  | .ok (some o) => return (CommandLine.statusByte (← Main.session o)).toUInt32
