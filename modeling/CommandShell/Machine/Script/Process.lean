import CommandShell.Machine.Disk
import CommandShell.Machine.Script.Source

/-! A process that runs a script: its variables, its streams and how it ends.
Processes share the world: the disk, the open files and what was written to pipes. -/
namespace CommandShell
namespace Script

inductive Goal
  | nothing
  | pipe (number : Nat)
  | file (place : Place)
  deriving DecidableEq

structure OpenFile where
  goal : Goal
  /-- Where it is read or written next. -/
  position : Nat
  /-- All that is written goes to the end. -/
  append : Bool
  readable : Bool
  writable : Bool

structure World where
  disk : Disk
  files : Array OpenFile
  /-- All that was ever written to each pipe. -/
  pipes : Array String
  processes : Nat
  /-- Signals that were sent to processes and did not reach them yet. -/
  signals : List (Nat × Nat)

structure Variable where
  value : Option String
  exported : Bool
  fixed : Bool
  deriving DecidableEq

/-- What runs beside a process: its number, its status, and what it wrote that is still to be shown,
as pairs of a pipe and an open file. -/
structure Job where
  number : Nat
  status : Nat
  held : List (Nat × Nat)
  deriving DecidableEq

structure Process where
  name : String
  args : List String
  vars : Std.TreeMap String Variable
  functions : Std.TreeMap String Command
  aliases : List (String × String)
  documents : Array Word
  /-- The options that are set, by their letters. -/
  options : List Char
  /-- Where its streams lead, as numbers of open files. -/
  streams : Std.TreeMap Nat Nat
  directory : Place
  mask : Nat
  /-- What is run at signals, by their numbers, and at the end, which has the number zero. -/
  traps : List (Nat × String)
  status : Nat
  /-- The status of the last command that was put in the place of a word. -/
  substituted : Nat
  /-- The line of the command that runs, and the line that is read. -/
  line : Nat
  reached : Nat
  /-- The command that runs, if it is a built-in one. -/
  builtin : Option String
  loops : Nat
  calls : Nat
  /-- The variables that functions have hidden, for each call that runs. -/
  hidden : List (List (String × Option Variable))
  /-- Letters of the word of options that were taken. -/
  optionOffset : Nat
  number : Nat
  /-- It is a copy of the process with that number. -/
  copied : Bool
  jobs : List Job
  /-- The number of the job that was started last. -/
  lastJob : Option Nat
  world : World

def splitBinding (text : String) : String × Option String :=
  let name := text.toList.takeWhile (· ≠ '=')
  let value? := if name.length = text.length then none
    else some (String.ofList (text.toList.drop (name.length + 1)))
  (String.ofList name,value?)

/-- A process that was just started with some variables, each written with an equals sign. It has
nothing to read, and a pipe for each output. -/
def Process.first (d : Disk) (directory : Place) (vars : List String) : Process where
  name := ""
  args := []
  vars := vars.foldl (fun vs text =>
    let (name,value?) := splitBinding text
    vs.insert name ⟨value?,true,false⟩) ∅
  functions := ∅
  aliases := []
  documents := #[]
  options := []
  streams := [(0,0),(1,1),(2,2)].foldl (fun s (stream,file) => s.insert stream file) ∅
  directory := directory
  mask := 0o022
  traps := []
  status := 0
  substituted := 0
  line := 0
  reached := 1
  builtin := none
  loops := 0
  calls := 0
  hidden := []
  optionOffset := 0
  number := 1000
  copied := false
  jobs := []
  lastJob := none
  world :=
    { disk := d
      files := #[⟨.nothing,0,false,true,false⟩,⟨.pipe 0,0,false,false,true⟩,
        ⟨.pipe 1,0,false,false,true⟩]
      pipes := #["",""]
      processes := 1001
      signals := [] }

inductive Leave
  | exit
  /-- Something went wrong, and was reported; the process ends, unless this is caught. -/
  | fault
  | killed (signal : Nat)
  | breaking (loops : Nat)
  | continuing (loops : Nat)
  | returning
  deriving DecidableEq

abbrev Run := ExceptT Leave (StateM Process)

namespace Run

variable {α : Type}

def setStatus (n : Nat) : Run Unit := modify fun p => { p with status := n }

def option (c : Char) : Run Bool := do return (← get).options.contains c

def open? (stream : Nat) : Run (Option OpenFile) := do
  let p ← get
  return (p.streams[stream]?).bind fun n => p.world.files[n]?

def overwrite (content : Bytes) (position : Nat) (new : Bytes) : Bytes :=
  content.take position ++ List.replicate (position - content.length) 0 ++ new
    ++ content.drop (position + new.length)

def writeFile (w : World) (n : Nat) (text : String) : World :=
  match w.files[n]? with
  | none => w
  | some f =>
    match f.goal with
    | .nothing => w
    | .pipe k => { w with pipes := w.pipes.modify k (· ++ text) }
    | .file place =>
      match w.disk.item? place with
      | some (.file content mode) =>
        let position := if f.append then content.length else f.position
        let content := overwrite content position (Text.bytes text)
        { w with
          disk := w.disk.put place (.file content mode)
          files := w.files.setIfInBounds n { f with position := position + text.length } }
      | _ => w

def write (stream : Nat) (text : String) : Run Bool := fun p =>
  match p.streams[stream]? with
  | none => (.ok false,p)
  | some n =>
    if (p.world.files[n]?).any OpenFile.writable then
      (.ok true,{ p with world := writeFile p.world n text })
    else (.ok false,p)

def print (text : String) : Run Unit := do let _ ← write 1 text

def warn (text : String) : Run Unit := do
  let p ← get
  let command := (p.builtin.map (· ++ ": ")).getD ""
  let _ ← write 2 (p.name ++ ": " ++ toString p.line ++ ": " ++ command ++ text ++ "\n")

def failWith (status : Nat) (text : String) : Run α := do
  warn text
  setStatus status
  throw .fault

def fail (text : String) : Run α := failWith 2 text

def remaining (w : World) (f : OpenFile) : String :=
  match f.goal with
  | .nothing => ""
  | .pipe k => String.ofList ((w.pipes[k]?.getD "").toList.drop f.position)
  | .file place =>
    match w.disk.item? place with
    | some (.file content _) => Text.narrow (content.drop f.position)
    | _ => ""

/-- Takes from a stream what `split` gives of all that it still holds. -/
def readBy (stream : Nat) (split : String → String) : Run String := fun p =>
  match (p.streams[stream]?).bind fun n => (p.world.files[n]?).map fun f => (n,f) with
  | none => (.ok "",p)
  | some (n,f) =>
    let text := split (remaining p.world f)
    let f := { f with position := f.position + text.length }
    (.ok text,{ p with world := { p.world with files := p.world.files.setIfInBounds n f } })

def readAll (stream : Nat) : Run String := readBy stream id

def readLine (stream : Nat) : Run String := readBy stream fun text =>
  let line := text.toList.takeWhile (· ≠ '\n')
  String.ofList (text.toList.take (line.length + 1))

def openFile (f : OpenFile) : Run Nat := fun p =>
  (.ok p.world.files.size,{ p with world := { p.world with files := p.world.files.push f } })

def connect (stream file : Nat) : Run Unit :=
  modify fun p => { p with streams := p.streams.insert stream file }

def openPipe (content : String) : Run (Nat × Nat × Nat) := do
  let k := (← get).world.pipes.size
  modify fun p => { p with world := { p.world with pipes := p.world.pipes.push content } }
  let reader ← openFile ⟨.pipe k,0,false,true,false⟩
  let writer ← openFile ⟨.pipe k,0,false,false,true⟩
  return (k,reader,writer)

def changeDisk (f : Disk → Except IoError Disk) : Run (Except IoError Unit) := fun p =>
  match f p.world.disk with
  | .ok disk => (.ok (.ok ()),{ p with world := { p.world with disk := disk } })
  | .error e => (.ok (.error e),p)

def value? (name : String) : Run (Option String) := do
  return ((← get).vars[name]?).bind Variable.value

def assign (name value : String) : Run Unit := do
  let p ← get
  let old := p.vars[name]?
  if old.any Variable.fixed then fail (name ++ ": is read only")
  let exported := old.any Variable.exported || p.options.contains 'a'
  set { p with
    vars := p.vars.insert name ⟨some value,exported,false⟩
    optionOffset := if name = "OPTIND" then 0 else p.optionOffset }

/-- Remembers the variable for the call that runs, so that its end brings it back. -/
def hide (name : String) : Run Unit := modify fun p =>
  match p.hidden with
  | [] => p
  | frame :: outer =>
    if frame.any (·.1 = name) then p
    else { p with hidden := ((name,p.vars[name]?) :: frame) :: outer }

/-- Runs `act` with variables that are hidden in it brought back after it. -/
def inCall (act : Run α) : Run α := do
  modify fun p => { p with hidden := [] :: p.hidden }
  let restore : Run Unit := modify fun p =>
    match p.hidden with
    | [] => p
    | frame :: outer =>
      let vars := frame.foldl (fun vs (name,old) =>
        match old with
        | some v => vs.insert name v
        | none => vs.erase name) p.vars
      { p with vars := vars, hidden := outer }
  let a ← tryCatch act fun l => do
    restore
    throw l
  restore
  return a

def exports : Run (List (String × String)) := do
  return (← get).vars.toList.filterMap fun (name,v) =>
    if v.exported then v.value.map fun value => (name,value) else none

def newNumber : Run Nat := fun p =>
  let n := p.world.processes
  (.ok n,{ p with world := { p.world with processes := n + 1 } })

/-- Runs `act` in a copy of the process. What it does to the world remains, and nothing else does.
Gives the status it ends with, and the signal that killed it. -/
def forked (act : Run Unit) : Run (Nat × Option Nat) := fun p =>
  let (result,child) := act.run { p with copied := true } |>.run
  let p := { p with world := child.world }
  match result with
  | .error (.killed signal) => (.ok (128 + signal,some signal),p)
  | _ => (.ok (child.status,none),p)

end Run
end Script
end CommandShell
