import CommandShell.Command

/-! Small commands a host can register to try a shell out.
Each does one thing that a command can do: give a value, fail, read, write, run another line,
change the registry or end the session. -/
namespace CommandShell

namespace Probe

inductive Deed
  | null
  | bound
  | args
  | path
  /-- How often this instance has run. -/
  | calls
  | value (v : Value)
  | fail (text : String)
  | failInContext (text : String)
  | write (output errors : Option Bytes)
  | readAll
  | readByte
  | setVariable (name : String)
  | run (line : String)
  | runInContext (line : String)
  /-- Fails with no more than the message of what went wrong. -/
  | runAsText (line : String)
  | exit (code : Int32)
  | exitInContext (code : Int32)
  | register
  | unregister
  deriving Inhabited

end Probe

structure Probe where
  deed : Probe.Deed
  /-- The help text, or nothing if all arguments are accepted and none is kept. -/
  help : Option String

namespace Probe

variable {κ : Type}

def echoPath : Probe := ⟨.path,some "help"⟩

def writeIfAny (channel : Channel) : Option Bytes → Program κ Unit
  | none => return ()
  | some bytes => Program.writeBytes channel bytes

def runLine (line : String) (failure : ShellError → Failure) : Program κ Value := do
  return (← Program.ask (.execute line) (Program.ofExcept failure)).getD .null

def program (action : Probe → κ) (bound : List String) (i : Invocation) : Deed → Program κ Value
  | .null => return .null
  | .bound => return .list (bound.map .str)
  | .args => return .list (i.args.map .str)
  | .path => return .str i.path
  | .calls => return .int 1
  | .value v => return v
  | .fail text => .fail (.message text)
  | .failInContext text => .fail (.context "outer" (.message text))
  | .write output errors => do
    writeIfAny .output output
    writeIfAny .errors errors
    return .null
  | .readAll => .ask .readAll fun bytes =>
    match Text.decode? bytes with
    | some text => .done (.str text)
    | none => .fail (.io .notText)
  | .readByte => .ask .readByte fun byte =>
    .done (byte.elim .null fun b => .int (Int64.ofNat b.toNat))
  | .setVariable name => do
    Program.setVariable name (",".intercalate i.args)
    return .null
  | .run line => runLine line .shell
  | .runInContext line => runLine line fun e => .context "outer" (.shell e)
  | .runAsText line => runLine line fun e => .message e.message
  | .exit code => .fail (.exit code)
  | .exitInContext code => .fail (.context "outer" (.exit code))
  | .register => do
    let d := Descriptor.named (i.args.headD "") (action echoPath)
    let r ← Program.ask (.register d) (Program.ofExcept fun e => .shell (.registry e))
    return .str r.path.text
  | .unregister => do
    let _ ← Program.ask (.unregister (i.args.headD ""))
      (Program.ofExcept fun e => .shell (.registry e))
    return .null

def command (action : Probe → κ) (p : Probe) : Command κ where
  bind args :=
    match p.help,args with
    | none,_ => .ok (.ready fun i => program action [] i p.deed)
    | some help,"--help" :: _ => .ok (.help help)
    | some _,"--bogus" :: _ => .error ⟨"host","unknown flag --bogus"⟩
    | some _,args => .ok (.ready fun i => program action args i p.deed)
  verbatim i := program action [] i p.deed

end Probe
end CommandShell
