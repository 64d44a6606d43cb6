import CommandShell.Pattern.CharSet
import CommandShell.Pattern.Steps

/-! Patterns that select names.
A pattern matches a text if it matches some part of it. `steps` gives every pair of positions
between which a pattern matches, so neither order nor greed of a choice matters. -/
namespace CommandShell

namespace Pattern

inductive Boundary
  | word
  | notWord
  | wordStart
  | wordEnd
  | noWordBefore
  | noWordAfter
  deriving DecidableEq

def Boundary.holds (before after : Bool) : Boundary → Bool
  | word => before != after
  | notWord => before == after
  | wordStart => !before && after
  | wordEnd => before && !after
  | noWordBefore => !before
  | noWordAfter => !after

inductive Condition
  | textStart
  | textEnd
  | lineStart
  | lineEnd
  | boundary (b : Boundary)
  deriving DecidableEq

def Condition.holds (text : Array Char) (i : Nat) : Condition → Bool
  | textStart => i = 0
  | textEnd => i = text.size
  | lineStart => i = 0 || text[i - 1]? = some '\n'
  | lineEnd => i = text.size || text[i]? = some '\n'
  | boundary b =>
    let isWord (c : Char) : Bool := CharSet.word.contains c.toNat
    b.holds (i ≠ 0 && text[i - 1]?.any isWord) (text[i]?.any isWord)

end Pattern

inductive Pattern
  | empty
  | one (s : CharSet)
  | condition (c : Pattern.Condition)
  | seq (p q : Pattern)
  | alt (p q : Pattern)
  /-- At least so many times, and at most so many if a bound is given. -/
  | repeated (p : Pattern) (least : Nat) (most : Option Nat)
  /-- A part that can be asked for by a number or a name. -/
  | group (p : Pattern)
  deriving DecidableEq

namespace Pattern

/-- The positions between which a pattern matches. -/
def steps (text : Array Char) : Pattern → Steps
  | empty => .stay (text.size + 1)
  | one s => .onwardIf (text.size + 1) fun i => text[i]?.any fun c => s.contains c.toNat
  | condition c => .stayIf (text.size + 1) fun i => c.holds text i
  | seq p q => (p.steps text).comp (q.steps text)
  | alt p q => (p.steps text).union (q.steps text)
  | repeated p least most =>
    let s := p.steps text
    (s.power least).comp (match most with
      | none => s.closure
      | some n => s.upTo (n - least))
  | group p => p.steps text

def isMatch (p : Pattern) (text : String) : Bool := (p.steps text.toList.toArray).any

end Pattern
end CommandShell
