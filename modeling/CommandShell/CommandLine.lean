import CommandShell.Action
import CommandShell.CommandLine.Options
import CommandShell.CommandLine.Typed

/-! The program as it is called: from its arguments and its input to its outputs and its status. -/
namespace CommandShell

/-- What the program meets outside of itself. -/
structure Surroundings where
  environment : List (String × String)
  disk : Disk
  read : String → Except IoError Bytes
  programs : String → Programs
  engine : Engine Action

namespace Surroundings

def ofMachine (m : Machine) (d : Disk) : Surroundings :=
  ⟨m.environment,d,d.contentOf,d.programs,Action.engine m⟩

def lookup (s : Surroundings) (name : String) : Option String :=
  (s.environment.find? (·.1 = name)).map (·.2)

end Surroundings

namespace CommandLine

/-- The group of the programs that were found on the search path of the process. -/
def programGroup : External := ⟨⟨true,["ext"]⟩,∅⟩

/-- The built-in commands, and the programs on the search path if they are asked for. -/
def kernel (s : Surroundings) (o : Options) : Kernel Action :=
  let k := Kernel.withBuiltins Action.builtin
  if o.pathCommands then
    let found := s.programs ((s.lookup "PATH").getD "")
    { k with registry := (programGroup.rescan .program k.registry found).registry }
  else k

def shell (s : Surroundings) (o : Options) : Shell Action where
  kernel := kernel s o
  disk := s.disk
  session := { Session.opened (.opened []) with
    environment := .inherited s.environment
    config := { Config.standard with
      maxAliasDepth := o.maxAliasDepth
      onError := if o.keepGoing then .proceed else .stop } }

/-- What a step comes to: the session goes on, or it ends with a status. -/
abbrev Step := Act Action (Option Int32)

def report (text : String) : Act Action Unit := do
  let _ ← Act.write .errors (Text.encode (text ++ "\n"))

def abort (messages : List String) : Step := do
  report (": ".intercalate messages)
  return some 1

def execute (s : Surroundings) (line : String) : Act Action (Except ShellError (Option Value)) :=
  ((s.engine.reentry Action.depth).execute line).run

/-- Runs a line that was not typed. Any error ends the session. -/
def runGiven (s : Surroundings) (line : String) : Step := do
  match ← execute s line with
  | .ok value =>
    match ← Act.print value with
    | .ok () => return none
    | .error e => abort [e.message]
  | .error (.exit code) => return some code
  | .error e => if e.isRecoverable then abort [e.message] else abort e.chain

/-- Terminals on which a line cannot be edited while it is typed. -/
def plainTerminals : List String := ["dumb","cons25","emacs"]

def isPlain (s : Surroundings) : Bool :=
  plainTerminals.contains (((s.lookup "TERM").getD "").map Char.toLower)

/-- Asks for a line on a plain terminal; elsewhere nobody is asked who does not type. -/
def prompt (s : Surroundings) : Act Action Unit := do
  if isPlain s then
    let _ ← Act.write .output (Text.encode (← Act.session).config.prompt)

/-- Runs a line that was typed. Blank ones are passed over, and errors are only reported. -/
def runTyped (s : Surroundings) (line : String) : Step := do
  if Text.trimmed line = "" then return none
  match ← execute s line with
  | .ok value =>
    match ← Act.print value with
    | .ok () => return none
    | .error e => abort [e.message]
  | .error (.exit code) => return some code
  | .error e =>
    report e.message
    return none

/-- Runs the file that comes before anything else; its text is one line to the shell. -/
def runStartup (s : Surroundings) (o : Options) : Step :=
  match o.startup with
  | none => return none
  | some file =>
    let text : Except IoError String := do
      match Text.decode? (← s.read file) with
      | some text => return text
      | none => throw .notText
    match text with
    | .ok text => runGiven s text
    | .error e => abort ["can't read " ++ file,e.message]

def inOrder : List Step → Step
  | [] => return none
  | step :: rest => do
    match ← step with
    | some code => return some code
    | none => inOrder rest

def converse (s : Surroundings) (line : String) : Step := do
  prompt s
  runTyped s line

def leave (s : Surroundings) : Step := do
  prompt s
  return some 0

/-- A whole session on the given lines. It ends with the status 0 unless a step says otherwise. -/
def run (s : Surroundings) (o : Options) (input : String) : Act Action Int32 := do
  let steps := match o.line with
    | some line => [runGiven s line]
    | none => (Typed.lines input).map (converse s) ++ [leave s]
  return (← inOrder (runStartup s o :: steps)).getD 0

def statusByte (code : Int32) : Int32 := code &&& 0xFF

/-- How the program ends that is called with `args`, or nothing if lines run too deep inside one
another. -/
def ended? (s : Surroundings) (args : List String) (input : String) : Option Ended :=
  match Options.parse args with
  | .error fault => some ⟨1,[],Text.encode (Options.report fault)⟩
  | .ok none => some ⟨0,Text.encode (Options.usage.text ++ "\n"),[]⟩
  | .ok (some o) =>
    (run s o input (shell s o)).map fun (code,shell) =>
      let (output,errors,_) := shell.session.console.take
      ⟨statusByte code,output,errors⟩

end CommandLine
end CommandShell
