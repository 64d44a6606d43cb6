import Std.Data.TreeMap
import CommandShell.Path

/-! Session variables.
Two of them steer where names are looked up: the current group and the search path. -/
namespace CommandShell

structure Environment where
  vars : Std.TreeMap String String

namespace Environment

/-- The variable that holds the current group. -/
def groupName : String := "GROUP"

/-- The variable that holds the places where names are looked up, with colons between them. -/
def searchName : String := "SEARCH_PATH"

def defaultSearch : String := ".:/"

def empty : Environment := ⟨∅⟩

instance : Inhabited Environment := ⟨empty⟩

def get? (e : Environment) (name : String) : Option String := e.vars[name]?

def set (e : Environment) (name value : String) : Environment := ⟨e.vars.insert name value⟩

def remove (e : Environment) (name : String) : Environment := ⟨e.vars.erase name⟩

def ofList (pairs : List (String × String)) : Environment :=
  pairs.foldl (fun e p => e.set p.1 p.2) empty

def toList (e : Environment) : List (String × String) := e.vars.toList

def size (e : Environment) : Nat := e.vars.size

/-- What a session takes over from a process: everything but the two variables that steer it. -/
def inherited (pairs : List (String × String)) : Environment :=
  ofList (pairs.filter fun p => p.1 ≠ groupName ∧ p.1 ≠ searchName)

/-- The current group, absolute and normalised. It is the root unless the variable names one. -/
def currentGroup (e : Environment) : Path :=
  match (e.get? groupName).map Path.parse with
  | some (.ok p) => p.fromRoot
  | _ => .root

def setCurrentGroup (e : Environment) (p : Path) : Environment := e.set groupName p.text

/-- The entries of the search path in the order of lookup; empty ones are passed over. -/
def searchPath (e : Environment) : List Path :=
  let entries := ((e.get? searchName).getD defaultSearch).toList.splitOn ':'
  entries.filterMap fun entry => (Path.parse (String.ofList entry)).toOption

def setSearchPath (e : Environment) (entries : List Path) : Environment :=
  e.set searchName (":".intercalate (entries.map Path.text))

theorem get?_set (e : Environment) (name value other : String) :
    (e.set name value).get? other = if name = other then some value else e.get? other := by
  simp [get?,set,Std.TreeMap.getElem?_insert]

end Environment
end CommandShell
