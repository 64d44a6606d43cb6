import CommandShell.Token.Scanner

/-! A line as a sequence of statements, each a sequence of fragments. -/
namespace CommandShell

inductive Fragment
  | plain (text : String)
  | quoted (text : String)
  | verbatim (text : String)
  | space
  deriving DecidableEq

/-- What one invocation is made of, from its first fragment to its last. -/
structure Statement where
  fragments : List Fragment
  deriving DecidableEq

structure Line where
  statements : List Statement
  deriving DecidableEq

def Fragment.ofToken? : Token → Option Fragment
  | .plain text => some (.plain text)
  | .quoted text => some (.quoted text)
  | .verbatim text => some (.verbatim text)
  | .space => some .space
  | .separator => none

/-- Drops the first blank and every blank at the end. -/
def Statement.trim (fragments : List Fragment) : List Fragment :=
  let kept := (fragments.reverse.dropWhile (· = .space)).reverse
  if kept.head? = some .space then kept.tail else kept

/-- A statement is made of the tokens between two separators, if any are left by trimming. -/
def Statement.ofTokens? (tokens : List Token) : Option Statement :=
  match Statement.trim (tokens.filterMap Fragment.ofToken?) with
  | [] => none
  | fragments => some ⟨fragments⟩

namespace Line

def isEmpty (l : Line) : Bool := l.statements.isEmpty

def ofTokens (tokens : List Token) : Line :=
  ⟨(tokens.splitOn .separator).filterMap Statement.ofTokens?⟩

def parse (text : String) : Except Unfinished Line :=
  (Token.scan text).map ofTokens

end Line
end CommandShell
