import CommandShell.Console
import CommandShell.Expression
import CommandShell.Kernel
import CommandShell.Machine.Disk
import CommandShell.Resolution

/-! A session: its variables, aliases, settings and streams. -/
namespace CommandShell

inductive ErrorPolicy
  /-- The line ends with the error. -/
  | stop
  /-- A recoverable error is reported and the next statement run. -/
  | proceed
  deriving DecidableEq

structure Config where
  /-- How many aliases may expand inside one another. -/
  maxAliasDepth : Nat
  onError : ErrorPolicy
  prompt : String
  deriving DecidableEq

def Config.standard : Config := ⟨16,.stop,"$ "⟩

structure Session where
  environment : Environment
  aliases : AliasTable
  config : Config
  evaluator : Evaluator
  console : Console
  /-- How many aliases are being expanded now. -/
  aliasDepth : Nat

namespace Session

def opened (console : Console) : Session :=
  ⟨.empty,.empty,.standard,.ofVariables,console,0⟩

instance : Inhabited Session := ⟨opened default⟩

/-- A session that starts from the variables, aliases and settings of this one. -/
def fork (s : Session) (console : Console) : Session :=
  { s with console := console, aliasDepth := 0 }

def write (s : Session) (channel : Channel) (text : String) : Except IoError Session :=
  (s.console.write channel (Text.encode text)).map fun console => { s with console := console }

/-- Shows the result of a line, if it has one, the way it is shown after a typed line. -/
def print (s : Session) (v : Option Value) : Except IoError Session :=
  ((v.map Value.display).getD []).foldlM (fun s line => s.write .output (line ++ "\n")) s

def resolve {κ : Type} (s : Session) (t : Tree (Registered κ)) (name : String) :
    Except ShellError (Resolution κ) :=
  match Resolution.find? s.aliases s.environment t name with
  | some r => .ok r
  | none => .error (.commandNotFound name)

end Session

/-- One session together with what it shares with others. -/
structure Shell (κ : Type) where
  kernel : Kernel κ
  disk : Disk
  session : Session

def Shell.withConsole {κ : Type} (s : Shell κ) (console : Console) : Shell κ :=
  { s with session := { s.session with console := console } }

end CommandShell
