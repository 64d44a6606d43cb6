import Std.Data.TreeMap
import CommandShell.Path.Segment
import CommandShell.Registry
import CommandShell.Text.Utf8

/-! Programs found in directories, registered as commands of one group.
What was found before is remembered, so that looking again adds and removes only what changed. -/
namespace CommandShell

/-- An entry of a directory, with its name as the file system keeps it. -/
structure DirectoryEntry where
  name : Bytes
  /-- A regular file that may be executed. -/
  executable : Bool
  deriving DecidableEq

/-- A directory of the search, and its entries if it can be read. -/
structure Directory where
  path : String
  entries : Option (List DirectoryEntry)
  deriving DecidableEq

namespace Directory

def file (d : Directory) (name : String) : String :=
  if d.path.endsWith "/" then d.path ++ name else d.path ++ "/" ++ name

end Directory

/-- The steps of a file's path. Slashes in a row count as one, and a dot only where the path
starts with it. -/
def fileSteps (path : String) : List String :=
  match (path.toList.splitOn '/').map String.ofList with
  | [] => []
  | first :: rest => first :: rest.filter fun step => step ≠ "" ∧ step ≠ "."

def searchDirectories (paths : String) : List String := (paths.toList.splitOn ':').map String.ofList

abbrev Programs := Std.TreeMap String String

namespace Programs

/-- Adds the program of one entry, unless its name is taken or cannot name a command. -/
def addEntry (d : Directory) (found : Programs) (e : DirectoryEntry) : Programs :=
  match Text.decode? e.name with
  | none => found
  | some name =>
    if found.contains name || !Segment.isValid name || !e.executable then found
    else found.insert name (d.file name)

def addDirectory (found : Programs) (d : Directory) : Programs :=
  (d.entries.getD []).foldl (addEntry d) found

/-- The programs in a list of directories. The first directory that has a name provides it. -/
def scan (directories : List Directory) : Programs := directories.foldl addDirectory ∅

end Programs

structure ScanReport where
  added : Nat
  removed : Nat
  deriving DecidableEq

/-- The programs registered in one group. -/
structure External where
  group : Path
  known : Programs

namespace External

variable {κ : Type}

def named (group : String) : Except PathError External :=
  (Path.parse group).map fun p => ⟨p.fromRoot,∅⟩

def commandPath (x : External) (name : String) : String := (x.group.child name).text

def descriptor (x : External) (action : String → κ) (name file : String) : Descriptor κ :=
  { Descriptor.named (x.commandPath name) (action file) with
    description := some file
    verbatim := true }

structure Progress (κ : Type) where
  external : External
  registry : Registry κ
  report : ScanReport

def dropProgram (p : Progress κ) (name : String) : Progress κ :=
  let external := { p.external with known := p.external.known.erase name }
  match p.registry.unregister (external.commandPath name) with
  | .ok (_,registry) => ⟨external,registry,{ p.report with removed := p.report.removed + 1 }⟩
  | .error _ => { p with external := external }

/-- Registers a program that is not known. One that is refused stays unknown. -/
def addProgram (action : String → κ) (p : Progress κ) (name file : String) : Progress κ :=
  if p.external.known.contains name then p
  else match p.registry.register (p.external.descriptor action name file) with
    | .ok (_,registry) =>
      ⟨{ p.external with known := p.external.known.insert name file },registry,
        { p.report with added := p.report.added + 1 }⟩
    | .error _ => p

/-- The known programs that are gone or lie somewhere else now. -/
def stale (x : External) (found : Programs) : List String :=
  (x.known.toList.filter fun k => (found[k.1]?).map fileSteps ≠ some (fileSteps k.2)).map (·.1)

/-- Brings the registry in line with what was found: first the stale commands go, then the new
ones come, both in the order of their names. -/
def rescan (x : External) (action : String → κ) (r : Registry κ) (found : Programs) : Progress κ :=
  let dropped := (x.stale found).foldl dropProgram ⟨x,r,⟨0,0⟩⟩
  found.toList.foldl (fun p f => addProgram action p f.1 f.2) dropped

end External
end CommandShell
