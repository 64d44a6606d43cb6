import CommandShell.Token.Scanner

/-! The text of a fragment, cut where a value is to be put in. -/
namespace CommandShell
namespace Word

inductive Part
  | literal (text : String)
  /-- `$(line)` -/
  | command (line : String)
  /-- `$name`, or an expression between braces after a dollar sign. -/
  | parameter (expression : String)
  deriving DecidableEq

def startsName (c : Char) : Bool := c.isAlpha || c = '_'

def continuesName (c : Char) : Bool := c.isAlphanum || c = '_'

/-- Reads up to the bracket that closes the body: the body and what follows the bracket. -/
def body? (b : Bracket) : Nat → Option Char → List Char → Option (List Char × List Char)
  | _,_,[] => none
  | depth,some q,c :: rest =>
    if c = q then (body? b depth none rest).map fun r => (c :: r.1,r.2)
    else if q = '"' ∧ c = '\\' then
      match rest with
      | [] => none
      | d :: rest => (body? b depth (some q) rest).map fun r => (c :: d :: r.1,r.2)
    else (body? b depth (some q) rest).map fun r => (c :: r.1,r.2)
  | depth,none,c :: rest =>
    if b.quotes ∧ (c = '\'' ∨ c = '"') then
      (body? b depth (some c) rest).map fun r => (c :: r.1,r.2)
    else if b.quotes ∧ c = '\\' then
      match rest with
      | [] => none
      | d :: rest => (body? b depth none rest).map fun r => (c :: d :: r.1,r.2)
    else if c = b.opening then (body? b (depth + 1) none rest).map fun r => (c :: r.1,r.2)
    else if c = b.closing then
      if depth ≤ 1 then some ([],rest)
      else (body? b (depth - 1) none rest).map fun r => (c :: r.1,r.2)
    else (body? b depth none rest).map fun r => (c :: r.1,r.2)

theorem length_body? {b : Bracket} {depth : Nat} {q : Option Char} {s : List Char}
    {r : List Char × List Char} (h : body? b depth q s = some r) : r.2.length < s.length := by
  fun_induction body? b depth q s generalizing r <;>
    simp_all [Option.map_eq_some_iff] <;> grind

def withLiteral (text : String) (parts : List Part) : List Part :=
  if text = "" then parts else .literal text :: parts

def Part.ofBody (b : Bracket) (inner : List Char) : Part :=
  match b with
  | .paren => .command (String.ofList inner)
  | .brace => .parameter (String.ofList inner)

/-- Cuts `s`, where `text` is the literal text that stands before it. A dollar sign that opens
nothing is literal; so is all the rest from a bracket that is never closed. -/
def cut (text : String) (s : List Char) : List Part :=
  match s with
  | [] => withLiteral text []
  | c :: rest =>
    if c ≠ '$' then cut (text.push c) rest
    else match rest with
      | [] => withLiteral (text.push c) []
      | d :: tail =>
        match Bracket.ofChar? d with
        | some b =>
          match h : body? b 1 none tail with
          | none => withLiteral (text ++ String.ofList (c :: d :: tail)) []
          | some (inner,after) =>
            have := length_body? h
            withLiteral text (.ofBody b inner :: cut "" after)
        | none =>
          if startsName d then
            have := (List.dropWhile_sublist (l := d :: tail) continuesName).length_le
            withLiteral text (.parameter (String.ofList ((d :: tail).takeWhile continuesName)) ::
              cut "" ((d :: tail).dropWhile continuesName))
          else cut (text.push c) (d :: tail)
termination_by s.length
decreasing_by all_goals (simp_all <;> omega)

def split (text : String) : List Part := cut "" text.toList

end Word
end CommandShell
