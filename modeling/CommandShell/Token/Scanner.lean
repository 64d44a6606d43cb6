import CommandShell.Token

/-! The scanner cuts a line into tokens, one character at a time.
Every line can be scanned to its end; only what is open there makes it unfinished. -/
namespace CommandShell

inductive Bracket
  | paren
  | brace
  deriving DecidableEq

namespace Bracket

def opening : Bracket → Char
  | paren => '('
  | brace => '\x7b'

def closing : Bracket → Char
  | paren => ')'
  | brace => '\x7d'

/-- Whether quotes and backslashes hide brackets between these. -/
def quotes : Bracket → Bool
  | paren => true
  | brace => false

def ofChar? (c : Char) : Option Bracket :=
  if c = paren.opening then some paren else if c = brace.opening then some brace else none

def unfinished : Bracket → Unfinished
  | paren => .command
  | brace => .parameter

end Bracket

structure Body where
  bracket : Bracket
  /-- Brackets that are still to be closed. -/
  depth : Nat
  quote : Option Char
  /-- The next character follows a backslash. -/
  escaped : Bool
  deriving DecidableEq

namespace Body

def opened (b : Bracket) : Body := ⟨b,1,none,false⟩

/-- The body after one character more, or nothing when that character closed it. -/
def step (b : Body) (c : Char) : Option Body :=
  if b.escaped then some { b with escaped := false }
  else match b.quote with
    | some q =>
      if c = q then some { b with quote := none }
      else if q = '"' ∧ c = '\\' then some { b with escaped := true }
      else some b
    | none =>
      if b.bracket.quotes ∧ c = '\\' then some { b with escaped := true }
      else if b.bracket.quotes ∧ (c = '\'' ∨ c = '"') then some { b with quote := some c }
      else if c = b.bracket.opening then some { b with depth := b.depth + 1 }
      else if c = b.bracket.closing then
        if b.depth ≤ 1 then none else some { b with depth := b.depth - 1 }
      else some b

end Body

namespace Scanner

/-- Where in a line the scanner stands. The flag of the last two says whether double quotes are
open around the substitution. -/
inductive Mode
  /-- Before an argument: at the start of the line, after blanks or a separator. -/
  | start
  | bare
  | comment
  | single
  | double
  /-- After a backslash outside quotes. -/
  | escape
  /-- After a backslash between double quotes. -/
  | doubleEscape
  | dollar (inside : Bool)
  | body (inside : Bool) (b : Body)
  deriving DecidableEq

end Scanner

structure Scanner where
  mode : Scanner.Mode
  text : String
  tokens : Array Token

namespace Scanner

def initial : Scanner := ⟨.start,"",#[]⟩

def isBlank (c : Char) : Bool := c = ' ' || c = '\t' || c = '\r'

def isSeparator (c : Char) : Bool := c = ';' || c = '\n'

/-- Operators that the shell knows but gives no meaning. -/
def isOperator (c : Char) : Bool := c = '|' || c = '&' || c = '<' || c = '>'

def isEscapable (c : Char) : Bool := c = '"' || c = '\\' || c = '$' || c = '\x60'

def goto (s : Scanner) (m : Mode) : Scanner := { s with mode := m }

def keep (s : Scanner) (c : Char) : Scanner := { s with text := s.text.push c }

def emit (s : Scanner) (t : Token) : Scanner := { s with tokens := s.tokens.push t }

/-- Turns the collected text into a token, also when it is empty. -/
def close (s : Scanner) (token : String → Token) : Scanner :=
  { s with text := "", tokens := s.tokens.push (token s.text) }

/-- Turns the collected text into a token unless it is empty. -/
def flush (s : Scanner) (token : String → Token) : Scanner :=
  if s.text = "" then s else s.close token

/-- Blanks count once, and not where a statement begins. -/
def blank (s : Scanner) : Scanner :=
  match s.tokens.back? with
  | none | some .space | some .separator => s
  | some _ => s.emit .space

def unquoted (s : Scanner) (c : Char) : Scanner :=
  if isBlank c then (s.flush .plain).blank.goto .start
  else if isSeparator c then ((s.flush .plain).emit .separator).goto .start
  else if c = '#' ∧ s.mode = .start then s.goto .comment
  else if c = '\'' then (s.flush .plain).goto .single
  else if c = '"' then (s.flush .plain).goto .double
  else if c = '\\' then (s.flush .plain).goto .escape
  else if isOperator c then ((s.flush .plain).emit (.verbatim (String.singleton c))).goto .bare
  else if c = '$' then (s.keep c).goto (.dollar false)
  else (s.keep c).goto .bare

def quoted (s : Scanner) (c : Char) : Scanner :=
  if c = '"' then (s.close .quoted).goto .bare
  else if c = '\\' then s.goto .doubleEscape
  else if c = '$' then (s.keep c).goto (.dollar true)
  else (s.keep c).goto .double

def step (s : Scanner) (c : Char) : Scanner :=
  match s.mode with
  | .start | .bare => s.unquoted c
  | .comment => if c = '\n' then (s.emit .separator).goto .start else s
  | .single => if c = '\'' then (s.close .verbatim).goto .bare else s.keep c
  | .double => s.quoted c
  | .escape =>
    if c = '\n' then s.goto .bare else (s.emit (.verbatim (String.singleton c))).goto .bare
  | .doubleEscape =>
    if isEscapable c then
      ((s.flush .quoted).emit (.verbatim (String.singleton c))).goto .double
    else (s.keep '\\').quoted c
  | .dollar inside =>
    match Bracket.ofChar? c with
    | some b => (s.keep c).goto (.body inside (.opened b))
    | none => if inside then s.quoted c else (s.goto .bare).unquoted c
  | .body inside b =>
    match b.step c with
    | some b => (s.keep c).goto (.body inside b)
    | none => (s.keep c).goto (if inside then .double else .bare)

/-- The tokens of a line that ends here. A backslash that ends a line stands for itself. -/
def finish (s : Scanner) : Except Unfinished (List Token) :=
  match s.mode with
  | .single | .double | .doubleEscape | .dollar true => .error .quote
  | .body _ b => .error b.bracket.unfinished
  | .escape => .ok (s.emit (.verbatim "\\")).tokens.toList
  | .start | .bare | .comment | .dollar false => .ok (s.flush .plain).tokens.toList

end Scanner

def Token.scan (line : String) : Except Unfinished (List Token) :=
  (line.toList.foldl Scanner.step Scanner.initial).finish

end CommandShell
