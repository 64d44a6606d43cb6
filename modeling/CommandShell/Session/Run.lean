import CommandShell.Command
import CommandShell.Line
import CommandShell.Session
import CommandShell.Word

/-! How a session runs lines, commands, aliases and substitutions.
These run one another to any depth. `Engine.reentry n` allows `n` lines and commands inside one
another; a run that needs more has no result, which is told apart from every failure. -/
namespace CommandShell

/-- A run: what it does to the shell, if it ends within the depth it was given. -/
abbrev Act (κ : Type) := StateT (Shell κ) Option

/-- A run that may fail with an error of the shell. What was done before the failure stays. -/
abbrev ShellAct (κ : Type) := ExceptT ShellError (Act κ)

structure Engine (κ : Type) where
  command : κ → Command κ
  launch : String → List String → List (String × String) → Disk → Except IoError (Ended × Disk)

/-- What can be run from inside a run. -/
structure Reentry (κ : Type) where
  execute : String → ShellAct κ (Option Value)
  run : String → List String → ShellAct κ Value

namespace Act

variable {κ α : Type}

def outOfDepth : Act κ α := fun _ => none

def session : Act κ Session := fun s => some (s.session,s)

def update (f : Session → Session) : Act κ Unit :=
  fun s => some ((),{ s with session := f s.session })

def write (channel : Channel) (bytes : Bytes) : Act κ (Except IoError Unit) := fun s =>
  match s.session.console.write channel bytes with
  | .ok console => some (.ok (),s.withConsole console)
  | .error e => some (.error e,s)

def readAll : Act κ Bytes := fun s =>
  let console := s.session.console
  some (console.input,s.withConsole { console with input := [] })

def readByte : Act κ (Option UInt8) := fun s =>
  let console := s.session.console
  some (console.input.head?,s.withConsole { console with input := console.input.tail })

def tree : Act κ (Tree (Registered κ)) := fun s =>
  some (s.kernel.synced.names.tree,{ s with kernel := s.kernel.synced })

def commands : Act κ (List (Registered κ)) := fun s => some (s.kernel.registry.toList,s)

def register (d : Descriptor κ) : Act κ (Except RegistryError (Registered κ)) := fun s =>
  match s.kernel.register d with
  | .ok (r,kernel) => some (.ok r,{ s with kernel := kernel })
  | .error e => some (.error e,s)

def unregister (name : String) : Act κ (Except RegistryError (Registered κ)) := fun s =>
  match s.kernel.unregister name with
  | .ok (r,kernel) => some (.ok r,{ s with kernel := kernel })
  | .error e => some (.error e,s)

def resolve (name : String) : ShellAct κ (Resolution κ) :=
  ExceptT.mk do
    let t ← tree
    return (← session).resolve t name

def print (v : Option Value) : Act κ (Except IoError Unit) := fun s =>
  match s.session.print v with
  | .ok session => some (.ok (),{ s with session := session })
  | .error e => some (.error e,s)

def launch (process : Disk → Except IoError (Ended × Disk)) : Act κ (Except IoError Ended) :=
  fun s =>
    match process s.disk with
    | .ok (ended,disk) => some (.ok ended,{ s with disk := disk })
    | .error e => some (.error e,s)

def takeWritten : Act κ (Bytes × Bytes) := fun s =>
  let (output,errors,console) := s.session.console.take
  some ((output,errors),s.withConsole console)

/-- Runs `act` with its output captured; the capture ends whatever comes of it. -/
def captured (act : Act κ α) : Act κ (α × Bytes) := do
  update fun s => { s with console := s.console.capture }
  let a ← act
  let bytes := (← session).console.release.1
  update fun s => { s with console := s.console.release.2 }
  return (a,bytes)

end Act

namespace Reentry

variable {κ : Type}

/-- Runs the expansion of an alias, unless as many are being expanded as may be. -/
def executeAlias (inner : Reentry κ) (name line : String) : ShellAct κ (Option Value) :=
  ExceptT.mk do
    let s ← Act.session
    if s.config.maxAliasDepth ≤ s.aliasDepth then
      return .error (.aliasDepthExceeded name s.config.maxAliasDepth)
    Act.update fun s => { s with aliasDepth := s.aliasDepth + 1 }
    let result ← (inner.execute line).run
    Act.update fun s => { s with aliasDepth := s.aliasDepth - 1 }
    return result

/-- The captured output of `line` without the line breaks at its end; the text of its result if
nothing was written. -/
def substitute (inner : Reentry κ) (line : String) : ShellAct κ String := do
  let (result,bytes) ← (Act.captured (inner.execute line).run : Act κ _)
  let value ← (result : Except ShellError (Option Value))
  if bytes = [] then return (value.map Value.text).getD ""
  return String.ofList ((Text.decode bytes).toList.reverse.dropWhile (· = '\n')).reverse

def expandPart (inner : Reentry κ) : Word.Part → ShellAct κ String
  | .literal text => return text
  | .parameter expression => do
    let s ← (Act.session : Act κ Session)
    match s.evaluator expression s.environment with
    | .ok value => return value.text
    | .error text => throw (.evaluation ("$\x7b" ++ expression ++ "\x7d") (.message text))
  | .command line => ExceptT.mk do
    match ← (inner.substitute line).run with
    | .ok text => return .ok text
    | .error (.exit code) => return .error (.exit code)
    | .error e => return .error (.evaluation ("$(" ++ line ++ ")") (.shell e))

def expandText (inner : Reentry κ) (text : String) : ShellAct κ String := do
  return String.join (← (Word.split text).mapM inner.expandPart)

/-- The words assembled so far and the text of the one being assembled. -/
structure Assembly where
  words : List String
  text : String
  deriving DecidableEq

namespace Assembly

def add (a : Assembly) (text : String) : Assembly := { a with text := a.text ++ text }

def flush (a : Assembly) : Assembly := if a.text = "" then a else ⟨a.words ++ [a.text],""⟩

end Assembly

def expandFragment (inner : Reentry κ) (a : Assembly) : Fragment → ShellAct κ Assembly
  | .plain text | .quoted text => return a.add (← inner.expandText text)
  | .verbatim text => return a.add text
  | .space => return a.flush

def expand (inner : Reentry κ) (s : Statement) : ShellAct κ (List String) := do
  return (← s.fragments.foldlM inner.expandFragment ⟨[],""⟩).flush.words

end Reentry

namespace Program

variable {κ α : Type}

def perform (answer : (r : Request κ) → Act κ r.Answer) : Program κ α → Act κ (Except Failure α)
  | .done a => return .ok a
  | .fail f => return .error f
  | .ask r next => do (next (← answer r)).perform answer

end Program

namespace Engine

variable {κ : Type}

def answer (engine : Engine κ) (inner : Reentry κ) : (r : Request κ) → Act κ r.Answer
  | .readAll => Act.readAll
  | .readByte => Act.readByte
  | .write channel bytes => Act.write channel bytes
  | .environment => return (← Act.session).environment
  | .setEnvironment e => Act.update fun s => { s with environment := e }
  | .aliases => return (← Act.session).aliases
  | .setAliases t => Act.update fun s => { s with aliases := t }
  | .execute line => (inner.execute line).run
  | .run path args => (inner.run path args).run
  | .executeAlias name line => (inner.executeAlias name line).run
  | .resolve name => (Act.resolve name).run
  | .tree => Act.tree
  | .commands => Act.commands
  | .register d => Act.register d
  | .unregister name => Act.unregister name
  | .launch file args bindings => Act.launch (engine.launch file args bindings)

/-- Runs a command that was found: binds the arguments, unless they are taken as they are, and
runs what comes of it. -/
def runCommand (engine : Engine κ) (inner : Reentry κ) (d : Descriptor κ) (path : String)
    (args : List String) : ShellAct κ Value :=
  let command := engine.command d.action
  let perform (body : Invocation → Program κ Value) : ShellAct κ Value := ExceptT.mk do
    return ((← (body ⟨path,args⟩).perform (engine.answer inner)).mapError (·.raise path args))
  if d.verbatim then perform command.verbatim
  else match command.bind args with
    | .error e => throw (.usage e)
    | .ok (.help text) => ExceptT.mk do
      let shown := Text.encode (Text.trimmedEnd text ++ "\n")
      return ((← Act.write .output shown).mapError .io).map fun _ => .status 0
    | .ok (.ready body) => perform body

def runPath (engine : Engine κ) (inner : Reentry κ) (path : String) (args : List String) :
    ShellAct κ Value := do
  match ← Act.resolve path with
  | .group group => throw (.isAGroup group.text)
  | .aliased a => return (← inner.executeAlias a.name (a.expand args)).getD .null
  | .command _ r => engine.runCommand inner r.descriptor path args

/-- Runs a statement. One that expands to no word at all has no result. -/
def runStatement (engine : Engine κ) (inner : Reentry κ) (s : Statement) :
    ShellAct κ (Option Value) := do
  match ← inner.expand s with
  | [] => return none
  | path :: args => return some (← engine.runPath inner path args)

/-- Runs the next statement of a line, where `last` is the result so far. Where errors do not stop
the line, a recoverable one is reported and counts as the status 1. -/
def nextStatement (engine : Engine κ) (inner : Reentry κ) (last : Option Value) (s : Statement) :
    ShellAct κ (Option Value) :=
  ExceptT.mk do
    match ← (engine.runStatement inner s).run with
    | .ok value => return .ok (value.or last)
    | .error e =>
      if (← Act.session).config.onError = .proceed ∧ e.isRecoverable then
        let reported ← Act.write .errors (Text.encode (e.message ++ "\n"))
        return (reported.mapError .io).map fun _ => some (.status 1)
      else return .error e

/-- Runs the statements of a line in order. The result is that of the last one that has one. -/
def runLine (engine : Engine κ) (inner : Reentry κ) (line : String) : ShellAct κ (Option Value) :=
  match Line.parse line with
  | .error e => throw (.unfinished e)
  | .ok parsed => parsed.statements.foldlM (engine.nextStatement inner) none

/-- What can be run inside a run when `n` levels are left. -/
def reentry (engine : Engine κ) : Nat → Reentry κ
  | 0 => ⟨fun _ => ExceptT.mk Act.outOfDepth,fun _ _ => ExceptT.mk Act.outOfDepth⟩
  | n + 1 =>
    { execute := fun line => engine.runLine (engine.reentry n) line
      run := fun path args => engine.runPath (engine.reentry n) path args }

end Engine
end CommandShell
