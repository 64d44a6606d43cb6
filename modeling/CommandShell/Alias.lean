import Std.Data.TreeMap
import CommandShell.Text.Blank

/-! Aliases: names for which another text is run.
Arguments of an alias are appended to its text, quoted so that they are read back unchanged. -/
namespace CommandShell

/-- An alias and the text it stands for. -/
structure Alias where
  name : String
  text : String
  deriving DecidableEq

namespace Alias

/-- Characters other than white space that would be given a meaning. -/
def isSpecial (c : Char) : Bool :=
  c = ';' || c = '\'' || c = '"' || c = '$' || c = '\\' || c = '|' || c = '&' || c = '<' ||
    c = '>' || c = '#'

def needsQuotes (arg : String) : Bool :=
  arg.toList = [] || arg.toList.any fun c => Text.isBlank c || isSpecial c

/-- Between single quotes, a single quote closes them, stands escaped, and opens them again. -/
def quoteChar (c : Char) : List Char := if c = '\'' then ['\'','\\','\'','\''] else [c]

/-- A text that is read as the one argument `arg`. -/
def quote (arg : String) : String :=
  if needsQuotes arg then String.ofList ('\'' :: arg.toList.flatMap quoteChar ++ ['\''])
  else arg

/-- The text of the alias followed by the quoted arguments. -/
def expand (a : Alias) (args : List String) : String :=
  args.foldl (fun line arg => line ++ " " ++ quote arg) a.text

end Alias

structure AliasTable where
  entries : Std.TreeMap String String

namespace AliasTable

def empty : AliasTable := ⟨∅⟩

instance : Inhabited AliasTable := ⟨empty⟩

def get? (t : AliasTable) (name : String) : Option String := t.entries[name]?

def define (t : AliasTable) (name text : String) : AliasTable := ⟨t.entries.insert name text⟩

def remove (t : AliasTable) (name : String) : AliasTable := ⟨t.entries.erase name⟩

def ofList (pairs : List (String × String)) : AliasTable :=
  pairs.foldl (fun t p => t.define p.1 p.2) empty

def toList (t : AliasTable) : List (String × String) := t.entries.toList

def size (t : AliasTable) : Nat := t.entries.size

theorem get?_define (t : AliasTable) (name text other : String) :
    (t.define name text).get? other = if name = other then some text else t.get? other := by
  simp [get?,define,Std.TreeMap.getElem?_insert]

theorem get?_remove (t : AliasTable) (name other : String) :
    (t.remove name).get? other = if name = other then none else t.get? other := by
  simp [get?,remove,Std.TreeMap.getElem?_erase]

end AliasTable
end CommandShell
