import CommandShell.Pattern.Reader
import CommandShell.Pattern.Weight

/-! What a pattern as it is written means.
Flags hold from where they stand to the end of the group around them. -/
namespace CommandShell
namespace Pattern

/-! ### Nesting -/

def tooDeep {α : Type} (place : Span) : Except Found α := .error ⟨.nestedTooDeep,place,none⟩

def deeper (depth : Nat) (place : Span) : Except Found Nat :=
  if depth < nestLimit then .ok (depth + 1) else tooDeep place

mutual

def ClassTerm.checkDepth (depth : Nat) : ClassTerm → Except Found Unit
  | .bracketed inner _ s => do inner.checkDepth (← deeper depth s)
  | .union members s => do checkMembers (← deeper depth s) members
  | .op _ left right s => do
    let depth ← deeper depth s
    left.checkDepth depth
    right.checkDepth depth
  | _ => return ()

def checkMembers (depth : Nat) : List ClassTerm → Except Found Unit
  | [] => return ()
  | t :: ts => do
    t.checkDepth depth
    checkMembers depth ts

end

mutual

def Term.checkDepth (depth : Nat) : Term → Except Found Unit
  | .bracketed inner _ s => do inner.checkDepth (← deeper depth s)
  | .repeated t _ _ s | .group t _ _ s => do t.checkDepth (← deeper depth s)
  | .concat ts s | .alternation ts s => do checkTerms (← deeper depth s) ts
  | _ => return ()

def checkTerms (depth : Nat) : List Term → Except Found Unit
  | [] => return ()
  | t :: ts => do
    t.checkDepth depth
    checkTerms depth ts

end

/-! ### Sets -/

structure Modes where
  insensitive : Bool
  multiline : Bool
  dotAll : Bool
  /-- Characters are matched, and not bytes. -/
  characters : Bool
  returns : Bool
  deriving DecidableEq

namespace Modes

def standard : Modes := ⟨false,false,false,true,false⟩

def set (m : Modes) (change : Flag × Bool) : Modes :=
  match change.1 with
  | .insensitive => { m with insensitive := change.2 }
  | .multiline => { m with multiline := change.2 }
  | .dotAll => { m with dotAll := change.2 }
  | .characters => { m with characters := change.2 }
  | .returns => { m with returns := change.2 }
  | .swapGreed | .extended => m

def apply (m : Modes) (changes : FlagChanges) : Modes := changes.foldl set m

def fold (m : Modes) (s : CharSet) : CharSet :=
  if !m.insensitive then s else if m.characters then s.folded else s.foldedAscii

end Modes

def wrong {α : Type} (fault : Fault) (place : Span) : Except Found α := .error ⟨fault,place,none⟩

/-- All but a set, if that is meant. Among bytes this would hold some that are no text. -/
def negate (m : Modes) (negated : Bool) (place : Span) (s : CharSet) : Except Found CharSet :=
  if !negated then return s
  else if m.characters then return s.compl
  else wrong .notText place

/-- The character of a literal. A byte beyond ASCII is no text on its own. -/
def Literal.value (m : Modes) (l : Literal) : Except Found Char :=
  if !m.characters && l.twoDigits && 0x80 ≤ l.char.toNat then wrong .notText l.place
  else return l.char

def Literal.member (m : Modes) (l : Literal) : Except Found Char := do
  let c ← l.value m
  if m.characters || c.toNat < 0x80 then return c else wrong .notBytes l.place

def Shorthand.set (m : Modes) (s : Shorthand) (negated : Bool) (place : Span) :
    Except Found CharSet :=
  negate m negated place <| match s,m.characters with
    | digit,true => .digit
    | space,true => .space
    | word,true => .word
    | digit,false => CharSet.Ascii.digit
    | space,false => CharSet.Ascii.space
    | word,false => CharSet.Ascii.word

def PropertyName.set (m : Modes) (p : PropertyName) (place : Span) : Except Found CharSet :=
  if !m.characters then wrong .notBytes place
  else
    let found := match p.value with
      | none => CharSet.named p.name
      | some value => CharSet.valued p.name value
    match found with
    | .ok s => negate m p.negated place (m.fold s)
    | .error .property => wrong .propertyUnknown place
    | .error .value => wrong .propertyValueUnknown place

def ClassOp.apply : ClassOp → CharSet → CharSet → CharSet
  | inter => .inter
  | diff => .diff
  | symm => .symm

mutual

/-- The set that the inside of a class stands for. Variants in case are added before anything is
taken out. -/
def ClassTerm.set (m : Modes) : ClassTerm → Except Found CharSet
  | .empty _ => return .empty
  | .literal l => return .one (← l.member m)
  | .range low high => return .range (← low.member m) (← high.member m)
  | .named s negated place => negate m negated place (m.fold s)
  | .property p place => p.set m place
  | .shorthand s negated place => s.set m negated place
  | .bracketed inner negated place => do negate m negated place (m.fold (← inner.set m))
  | .union members _ => unionSet m members
  | .op o left right _ => do
    let left ← left.set m
    let right ← right.set m
    return o.apply (m.fold left) (m.fold right)

def unionSet (m : Modes) : List ClassTerm → Except Found CharSet
  | [] => return .empty
  | t :: ts => do
    let s ← t.set m
    return s.union (← unionSet m ts)

end

/-! ### Patterns -/

def append : Pattern → Pattern → Pattern
  | .empty,q => q
  | p,.empty => p
  | p,q => .seq p q

/-- One of several patterns. A choice between single characters is a set. -/
def choose : List Pattern → Pattern
  | [] => .one .empty
  | [p] => p
  | p :: q :: rest =>
    match p,choose (q :: rest) with
    | .one s,.one t => .one (s.union t)
    | p,q => .alt p q

/-- A pattern several times. To repeat what takes no room makes no difference. -/
def times (p : Pattern) (least : Nat) (most : Option Nat) : Pattern :=
  let (least,most) :=
    if p.isWidthless then (min least 1,some (min 1 (most.getD 1))) else (least,most)
  if most = some 0 then .empty
  else if least = 1 ∧ most = some 1 then p
  else .repeated p least most

/-- The condition under the flags in force: where lines do not count, those of the whole text. -/
def Condition.under (m : Modes) : Condition → Condition
  | .lineStart => if m.multiline then .lineStart else .textStart
  | .lineEnd => if m.multiline then .lineEnd else .textEnd
  | c => c

def dotSet (m : Modes) : CharSet :=
  if m.dotAll then .all
  else if m.returns then .compl (.ofChars ['\r','\n'])
  else .compl (.one '\n')

mutual

/-- The pattern of a term, and the flags in force behind it. -/
def Term.pattern (m : Modes) : Term → Except Found (Pattern × Modes)
  | .empty => return (.empty,m)
  | .flags changes => return (.empty,m.apply changes)
  | .literal l => return (.one (m.fold (.one (← l.value m))),m)
  | .dot place => if m.characters then return (.one (dotSet m),m) else wrong .notText place
  | .condition c _ => return (.condition (c.under m),m)
  | .property p place => return (.one (← p.set m place),m)
  | .shorthand s negated place => return (.one (← s.set m negated place),m)
  | .bracketed inner negated place => do
    return (.one (← negate m negated place (m.fold (← inner.set m))),m)
  | .repeated t least most _ => do
    let (p,m) ← t.pattern m
    return (times p least most,m)
  | .group t capturing changes _ => do
    let (p,_) ← t.pattern (m.apply changes)
    return (if capturing then .group p else p,m)
  | .concat ts _ => do
    let (ps,m) ← patterns m ts
    return (ps.foldl append .empty,m)
  | .alternation ts _ => do
    let (ps,m) ← patterns m ts
    return (choose ps,m)

def patterns (m : Modes) : List Term → Except Found (List Pattern × Modes)
  | [] => return ([],m)
  | t :: ts => do
    let (p,m) ← t.pattern m
    let (ps,m) ← patterns m ts
    return (p :: ps,m)

end

inductive Rejection
  | malformed (found : Found)
  | tooLarge
  deriving DecidableEq

def Rejection.message (text : String) : Rejection → String
  | malformed found => found.message text
  | tooLarge => "Compiled regex exceeds size limit of " ++ toString sizeLimit ++ " bytes."

/-- The pattern that a text is, or what is wrong with it. What cannot be read is reported first,
then what is nested too deep, then what has no meaning, and last what is too large. -/
def parse (text : String) : Except Rejection Pattern := do
  let meaning : Except Found (Pattern × Modes) := do
    let t ← readTerm text
    t.checkDepth 0
    t.pattern .standard
  match meaning with
  | .error found => throw (.malformed found)
  | .ok (p,_) => if p.isTooLarge then throw .tooLarge else return p

end Pattern
end CommandShell
