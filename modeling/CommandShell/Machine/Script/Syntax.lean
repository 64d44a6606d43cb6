import CommandShell.Text.Narrow

/-! The commands of scripts and the words they are made of.
A word is a list of pieces: letters that stand for themselves, and what is to be put in the place of
parameters, commands and sums. -/
namespace CommandShell
namespace Script

/-- What is made of the value of a parameter. An empty value counts as a missing one if `emptyToo`
says so. -/
inductive Form
  | plain
  | length
  /-- A word stands in for a missing value. -/
  | fallback (emptyToo : Bool)
  /-- A word stands in for a missing value, and becomes the value. -/
  | assign (emptyToo : Bool)
  /-- A missing value is an error, which the word tells about. -/
  | demand (emptyToo : Bool)
  /-- A word stands in for a value that is there. -/
  | replace (emptyToo : Bool)
  /-- A part that matches the word is cut off, at the front or at the end. -/
  | cut (front longest : Bool)
  | unknown
  deriving DecidableEq

inductive Direction
  | input
  /-- To a file that is emptied; the flag says that even a protected one may be. -/
  | output (clobber : Bool)
  | append
  | update
  | duplicate
  /-- To a text in the script, by its number. -/
  | document (number : Nat)
  deriving DecidableEq

structure Redirection (ω : Type) where
  stream : Nat
  direction : Direction
  target : ω

mutual

inductive Piece
  | letter (c : Char) (quoted : Bool)
  /-- A quote begins: there is a word, even if nothing is in it. -/
  | mark
  | parameter (name : String) (form : Form) (word : List Piece) (quoted : Bool)
  | command (c : Command) (quoted : Bool)
  | sum (expression : List Piece) (quoted : Bool)

/-- A command. Some have the number of the line they begin in. -/
inductive Command
  | nothing
  | simple (line : Nat) (assignments : List (String × List Piece)) (words : List (List Piece))
    (redirections : List (Redirection (List Piece)))
  | redirected (line : Nat) (c : Command) (redirections : List (Redirection (List Piece)))
  | subshell (line : Nat) (c : Command) (redirections : List (Redirection (List Piece)))
  /-- Runs in a process of its own that is not waited for. -/
  | background (c : Command)
  /-- Each part reads what the one before it writes. -/
  | pipeline (parts : List Command)
  | negated (c : Command)
  | inOrder (first second : Command)
  | onSuccess (first second : Command)
  | onFailure (first second : Command)
  | choice (test yes no : Command)
  /-- Runs its body as long as the test comes out as the flag says. -/
  | loop (success : Bool) (test body : Command)
  | forEach (line : Nat) (name : String) (words : List (List Piece)) (body : Command)
  /-- Runs the body of the first arm that has a pattern for the word. -/
  | select (line : Nat) (word : List Piece) (arms : List (List (List Piece) × Command))
  | define (name : String) (body : Command)

end

instance : Inhabited Command := ⟨.nothing⟩

abbrev Word := List Piece

namespace Word

def bare? (w : Word) : Option String :=
  String.ofList <$> w.mapM fun
    | .letter c false => some c
    | _ => none

def letters (w : Word) : String :=
  String.ofList (w.filterMap fun
    | .letter c _ => some c
    | _ => none)

end Word

def isNameStart (c : Char) : Bool := c.isAlpha || c = '_'

def isNameChar (c : Char) : Bool := c.isAlphanum || c = '_'

def isName (s : String) : Bool :=
  match s.toList with
  | [] => false
  | c :: rest => isNameStart c && rest.all isNameChar

def isSpecialName (c : Char) : Bool := c.isDigit || "$@*#?-!".toList.contains c

/-- A word that sets a variable: its name, and the rest. -/
def Word.assignment? (w : Word) : Option (String × Word) :=
  let isLetter : Piece → Bool
    | .letter c false => isNameChar c
    | _ => false
  let name := Word.letters (w.takeWhile isLetter)
  match w.dropWhile isLetter with
  | .letter '=' false :: rest => if isName name then some (name,rest) else none
  | _ => none

end Script
end CommandShell
