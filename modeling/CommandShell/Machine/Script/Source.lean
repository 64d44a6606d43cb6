import CommandShell.Machine.Script.Syntax

/-! The text of a script as it is being read: letter by letter, with the number of the line. -/
namespace CommandShell
namespace Script

/-- What a script cannot be read for, and the line it was noticed in. -/
structure Fault where
  line : Nat
  text : String
  deriving DecidableEq

inductive Mark
  | newline
  | semicolon
  | ampersand
  | bothOf
  | eitherOf
  | pipe
  | opening
  | closing
  | armEnd
  deriving DecidableEq

inductive Token
  | word (w : Word)
  | mark (m : Mark)
  /-- The start of a redirection, up to its target. -/
  | redirection (stream : Nat) (direction : Direction)
  /-- The start of a text in the script; the flag says that tabs in front of its lines go. -/
  | document (stream : Nat) (tabs : Bool)
  | finish

namespace Mark

def name : Mark → String
  | newline => "newline"
  | semicolon => "\";\""
  | ampersand => "\"&\""
  | bothOf => "\"&&\""
  | eitherOf => "\"||\""
  | pipe => "\"|\""
  | opening => "\"(\""
  | closing => "\")\""
  | armEnd => "\";;\""

end Mark

/-- Words that have a meaning of their own where a command may begin. -/
def keywords : List String :=
  ["!","case","do","done","elif","else","esac","fi","for","if","in","then","until",
    "while","\x7b","\x7d"]

namespace Token

def keyword? : Token → Option String
  | word w => w.bare?.bind fun text => if keywords.contains text then some text else none
  | _ => none

def name : Token → String
  | word _ => "word"
  | mark m => m.name
  | redirection _ _ | document _ _ => "redirection"
  | finish => "end of file"

def keyName (t : Token) : String :=
  (t.keyword?.map fun text => "\"" ++ text ++ "\"").getD t.name

end Token

/-- A text in the script that was announced and is still to come. -/
structure Announced where
  number : Nat
  /-- The line that ends it. -/
  last : String
  /-- Nothing in it is put in the place of anything. -/
  verbatim : Bool
  tabs : Bool

structure Source where
  rest : List Char
  line : Nat
  /-- A token that was read and then put back. -/
  ahead : Option Token
  announced : List Announced
  /-- The text in the script that is being read, up to its last line. -/
  ending : Option Announced
  /-- What stands behind the last line of that text, when it is reached. -/
  behind : Option (List Char)
  /-- Nothing is put in the place of parameters and commands. -/
  literal : Bool
  /-- The texts in the script, by number. -/
  documents : Array Word
  aliases : List (String × String)
  /-- Aliases being read, each with what is left when its text ends. -/
  expanding : List (String × Nat)

def Source.ofText (text : String) : Source where
  rest := text.toList
  line := 1
  ahead := none
  announced := []
  ending := none
  behind := none
  literal := false
  documents := #[]
  aliases := []
  expanding := []

abbrev Read := StateT Source (Except Fault)

namespace Read

variable {α : Type}

def fault (text : String) : Read α := fun s => .error ⟨s.line,text⟩

def unexpected (name : String) : Read α := fault ("Syntax error: " ++ name ++ " unexpected")

def expected (text name : String) : Read α :=
  fault ("Syntax error: " ++ name ++ " unexpected (expecting " ++ text ++ ")")

/-- The next letter, which stays. -/
def peek : Read (Option Char) := fun s => .ok (s.rest.head?,s)

def next : Read (Option Char) := fun s =>
  match s.rest with
  | [] => .ok (none,s)
  | c :: rest =>
    .ok (some c,{ s with rest := rest, line := if c = '\n' then s.line + 1 else s.line })

def skip : Read Unit := do let _ ← next

/-- Passes over the next letter, even at the end of a line, as if the line went on. -/
def drop : Read Unit := modify fun s => { s with rest := s.rest.tail }

def joinLines : Read Unit := fun s =>
  let rec go (line : Nat) : List Char → Nat × List Char
    | '\\' :: '\n' :: rest => go (line + 1) rest
    | rest => (line,rest)
  let (line,rest) := go s.line s.rest
  .ok ((),{ s with line := line, rest := rest })

def peekJoined : Read (Option Char) := do
  joinLines
  peek

def accept (c : Char) : Read Bool := do
  if (← peekJoined) = some c then
    skip
    return true
  return false

def takeWhile (p : Char → Bool) : Read String := fun s =>
  let text := s.rest.takeWhile p
  .ok (String.ofList text,
    { s with rest := s.rest.drop text.length, line := s.line + text.count '\n' })

def putBack (t : Token) : Read Unit := modify fun s => { s with ahead := some t }

def announce (last : Word) (tabs : Bool) : Read Nat := fun s =>
  let n := s.documents.size
  .ok (n,{ s with
    documents := s.documents.push []
    announced := s.announced ++ [⟨n,last.letters,last.bare?.isNone,tabs⟩] })

/-- Passes over tabs at the start of a line of a text in the script, if they go, and over its last
line, behind which there is nothing. -/
def startLine : Read Unit := modify fun s =>
  match s.ending with
  | none => s
  | some a =>
    let rest := if a.tabs then s.rest.dropWhile (· = '\t') else s.rest
    let line := rest.takeWhile (· ≠ '\n')
    if String.ofList line = a.last then
      { s with
        rest := []
        line := s.line + 1
        ending := none
        behind := some (rest.drop (line.length + 1)) }
    else { s with rest := rest }

def inside (act : Read α) : Read α := do
  let outer ← get
  set { outer with announced := [], ending := none }
  let a ← act
  modify fun inner => { inner with announced := outer.announced, ending := outer.ending }
  return a

def within (text : List Char) (act : Read α) : Read α := do
  let outer ← get
  set { outer with
    rest := text, line := 1, ahead := none, announced := [], ending := none, expanding := [] }
  let a ← act
  modify fun inner => { outer with documents := inner.documents }
  return a

end Read
end Script
end CommandShell
