import Std.Data.TreeMap
import CommandShell.Failure
import CommandShell.Text.Narrow

/-! The files of a machine, in a tree of directories.
All names are narrow texts. A path leads from a place in the tree to another, name by name; two dots
lead back, and at the root nowhere. -/
namespace CommandShell

inductive Item
  | file (content : Bytes) (mode : Nat)
  | directory
  /-- Holds nothing, and takes all that is written to it. -/
  | sink
  /-- A program of the machine itself, by its name. -/
  | tool (name : String)
  deriving DecidableEq

namespace Item

def modeOf (digits : String) : Nat :=
  (digits.toList.filter Char.isDigit).foldl (fun n c => n * 8 + (c.toNat - '0'.toNat)) 0

def isExecutable : Item → Bool
  | file _ mode => mode &&& 0o111 ≠ 0
  | tool _ => true
  | directory | sink => false

def isDirectory : Item → Bool
  | directory => true
  | _ => false

end Item

abbrev Place := List String

namespace Place

def path (place : Place) : String :=
  if place = [] then "/" else String.join (place.map ("/" ++ ·))

end Place

structure Disk where
  items : Std.TreeMap Place Item

namespace Disk

def empty : Disk := ⟨∅⟩

def nameLimit : Nat := 255

/-- A path has fewer bytes than this. -/
def pathLimit : Nat := 4096

def components (path : String) : List String :=
  ((path.toList.splitOn '/').filter (· ≠ [])).map String.ofList

def item? (d : Disk) (place : Place) : Option Item :=
  if place = [] then some .directory else d.items[place]?

/-- Makes every directory on the way that is not there yet. -/
def makeDirectory (d : Disk) (place : Place) : Disk :=
  ⟨(List.range place.length).foldl
    (fun items n => items.insertIfNew (place.take (n + 1)) .directory) d.items⟩

def put (d : Disk) (place : Place) (item : Item) : Disk :=
  ⟨(d.makeDirectory place.dropLast).items.insert place item⟩

def writeFile (d : Disk) (place : Place) (content : Bytes) (mode : Nat) : Disk :=
  d.put place (.file content mode)

def remove (d : Disk) (place : Place) : Disk :=
  ⟨d.items.filter fun other _ => !place.isPrefixOf other⟩

def children (d : Disk) (place : Place) : List (String × Item) :=
  d.items.toList.filterMap fun (names,item) =>
    match names.getLast? with
    | some name => if names.dropLast = place then some (name,item) else none
    | none => none

def enter (place : Place) : String → Except IoError Place
  | "." => .ok place
  | ".." => .ok place.dropLast
  | name => if nameLimit < name.length then .error .nameTooLong else .ok (place ++ [name])

/-- Follows names from `place`. Only a directory can be entered. -/
def walk (d : Disk) (place : Place) : List String → Except IoError Place
  | [] => .ok place
  | name :: rest =>
    match d.item? place with
    | none => .error .notFound
    | some .directory => do d.walk (← enter place name) rest
    | some _ => .error .notDirectory

/-- Where a path leads from `base`, whether or not something is there. -/
def resolve (d : Disk) (base : Place) (path : String) : Except IoError Place :=
  if path = "" then .error .notFound
  else if pathLimit ≤ path.length then .error .nameTooLong
  else d.walk (if path.startsWith "/" then [] else base) (components path)

/-- What a path leads to. A slash at its end asks for a directory. -/
def find (d : Disk) (base : Place) (path : String) : Except IoError (Place × Item) := do
  let place ← d.resolve base path
  match d.item? place with
  | none => throw .notFound
  | some item =>
    if path.endsWith "/" && !item.isDirectory then throw .notDirectory else return (place,item)

def read (d : Disk) (base : Place) (path : String) : Except IoError Bytes := do
  match (← d.find base path).2 with
  | .directory => throw .isDirectory
  | .file content _ => return content
  | .sink | .tool _ => return []

end Disk
end CommandShell
