import CommandShell.Pattern
import CommandShell.Pattern.Fault

/-! The parts of a pattern as they are written, each with its place. -/
namespace CommandShell
namespace Pattern

structure Literal where
  char : Char
  place : Span
  /-- Given by two hexadecimal digits, so that it can also stand for a byte. -/
  twoDigits : Bool
  deriving DecidableEq

inductive Flag
  | insensitive
  | multiline
  | dotAll
  | swapGreed
  | characters
  | returns
  /-- Blanks and comments are passed over. -/
  | extended
  deriving DecidableEq

namespace Flag

def ofLetter? : Char → Option Flag
  | 'i' => some insensitive
  | 'm' => some multiline
  | 's' => some dotAll
  | 'U' => some swapGreed
  | 'u' => some characters
  | 'R' => some returns
  | 'x' => some extended
  | _ => none

end Flag

abbrev FlagChanges := List (Flag × Bool)

/-- How a set with a property is named: by one letter or in braces, and with a value or without. -/
structure PropertyName where
  name : String
  value : Option String
  negated : Bool
  deriving DecidableEq

inductive Shorthand
  | digit
  | space
  | word
  deriving DecidableEq

inductive ClassOp
  | inter
  | diff
  | symm
  deriving DecidableEq

/-- What stands between the brackets of a class. A class in brackets can be a member of another. -/
inductive ClassTerm
  | empty (place : Span)
  | literal (l : Literal)
  | range (low high : Literal)
  | named (s : CharSet) (negated : Bool) (place : Span)
  | property (p : PropertyName) (place : Span)
  | shorthand (s : Shorthand) (negated : Bool) (place : Span)
  | bracketed (inner : ClassTerm) (negated : Bool) (place : Span)
  | union (members : List ClassTerm) (place : Span)
  | op (o : ClassOp) (left right : ClassTerm) (place : Span)

namespace ClassTerm

def place : ClassTerm → Span
  | literal l => l.place
  | range low high => ⟨low.place.first,high.place.last⟩
  | empty s | named _ _ s | property _ s | shorthand _ _ s | bracketed _ _ s | union _ s
  | op _ _ _ s => s

end ClassTerm

/-- A pattern as it is written. The condition of a line stands for that of the whole text where
lines do not count. -/
inductive Term
  | empty
  /-- Flags that hold from here to the end of the part around them. -/
  | flags (changes : FlagChanges)
  | literal (l : Literal)
  | dot (place : Span)
  | condition (c : Condition) (place : Span)
  | property (p : PropertyName) (place : Span)
  | shorthand (s : Shorthand) (negated : Bool) (place : Span)
  | bracketed (inner : ClassTerm) (negated : Bool) (place : Span)
  | repeated (t : Term) (least : Nat) (most : Option Nat) (place : Span)
  /-- A part in brackets, with flags that hold in it alone. -/
  | group (t : Term) (capturing : Bool) (changes : FlagChanges) (place : Span)
  | concat (parts : List Term) (place : Span)
  | alternation (branches : List Term) (place : Span)

namespace Term

def place : Term → Span
  | empty | flags _ => ⟨0,0⟩
  | literal l => l.place
  | dot s | condition _ s | property _ s | shorthand _ _ s | bracketed _ _ s | repeated _ _ _ s |
    group _ _ _ s | concat _ s | alternation _ s => s

def isVoid : Term → Bool
  | empty | flags _ => true
  | _ => false

end Term

end Pattern
end CommandShell
