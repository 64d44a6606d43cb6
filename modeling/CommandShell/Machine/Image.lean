import CommandShell.Machine.Disk

/-! What starts when a file is executed.
A tool starts itself. The first line of another file names its interpreter, which may itself have
one; it gets the path of the file in front of the arguments. -/
namespace CommandShell

/-- A tool, and the arguments it is started with, its own name first. -/
structure Image where
  tool : String
  args : List String
  deriving DecidableEq

namespace Image

/-- The most bytes in one argument or variable, with the byte that ends it. -/
def textLimit : Nat := 131072

/-- The most bytes in all arguments and variables, with eight more for each. -/
def totalLimit : Nat := 2097152

def isRoom (texts : List String) : Bool :=
  texts.all (fun t => t.length < textLimit)
    && texts.foldl (fun n t => n + (t.length + 9)) 0 ≤ totalLimit

/-- How many letters of a file are looked at for its interpreter. -/
def headLimit : Nat := 256

/-- How many interpreters may need an interpreter. -/
def depthLimit : Nat := 4

def isBlank (c : Char) : Bool := c = ' ' || c = '\t'

def interpreter? (text : List Char) : Option (String × Option String) :=
  match text.take headLimit with
  | '#' :: '!' :: rest =>
    let line := rest.takeWhile (· ≠ '\n')
    let whole := line.length < rest.length || text.length < headLimit
    let line := ((line.reverse.dropWhile isBlank).reverse).dropWhile isBlank
    let name := line.takeWhile fun c => !isBlank c && c ≠ '\x00'
    let after := line.drop name.length
    if name = [] || !(whole || after ≠ []) then none
    else
      let arg := (after.dropWhile isBlank).takeWhile (· ≠ '\x00')
      let arg? := if after.head? = some '\x00' || arg = [] then none else some (String.ofList arg)
      some (String.ofList name,arg?)
  | _ => none

/-- The tool that runs a file, where `n` more interpreters may be needed. -/
def loadFrom (d : Disk) (base : Place) : Nat → String → List String → Except IoError Image
  | n,file,args => do
    match (← d.find base file).2 with
    | .directory | .sink => throw .denied
    | .tool name => return ⟨name,args⟩
    | .file content mode =>
      if !(Item.file content mode).isExecutable then throw .denied
      match interpreter? (Text.narrow (content.take headLimit)).toList,n with
      | none,_ => throw .notProgram
      | some _,0 => throw .tooDeep
      | some (name,arg?),n + 1 =>
        loadFrom d base n name (name :: arg?.toList ++ file :: args.tail)

def load (d : Disk) (base : Place) (file : String) (args vars : List String) :
    Except IoError Image := do
  match (← d.find base file).2 with
  | .directory | .sink => throw .denied
  | item => if !item.isExecutable then throw .denied
  if !isRoom (args ++ vars) then throw .tooMuch
  loadFrom d base (depthLimit + 1) file args

end Image
end CommandShell
