import CommandShell.Pattern.Property
import CommandShell.Pattern.Term
import CommandShell.Text.Blank
import CommandShell.Text.Letter

/-! Reading the text of a pattern.
Groups and classes that are still open are kept on stacks, so that reading is one walk over the
text. -/
namespace CommandShell
namespace Pattern

structure Reader where
  rest : List Char
  place : Nat
  /-- Blanks and comments are passed over. -/
  extended : Bool
  names : List (List Char × Span)

abbrev Reading := StateT Reader (Except Found)

namespace Reading

def fail {α : Type} (fault : Fault) (first last : Nat) : Reading α :=
  throw ⟨fault,⟨first,last⟩,none⟩

def clash {α : Type} (fault : Fault) (place other : Span) : Reading α :=
  throw ⟨fault,place,some other⟩

def peek : Reading (Option Char) := return (← get).rest.head?

def place : Reading Nat := return (← get).place

def atEnd : Reading Bool := return (← get).rest.isEmpty

def bump : Reading Unit := modify fun r =>
  match r.rest with
  | [] => r
  | _ :: rest => { r with rest := rest, place := r.place + 1 }

/-- Blanks, and comments from `#` to the end of a line; `comment` says whether one is open. -/
def blanks (comment : Bool) : List Char → Nat
  | [] => 0
  | c :: rest =>
    if comment then blanks (c ≠ '\n') rest + 1
    else if Text.isBlank c then blanks false rest + 1
    else if c = '#' then blanks true rest + 1
    else 0

def skip : Reading Unit := modify fun r =>
  if r.extended then
    let n := blanks false r.rest
    { r with rest := r.rest.drop n, place := r.place + n }
  else r

/-- One character on, and past what is passed over; says whether anything is left. -/
def next : Reading Bool := do
  bump
  skip
  return !(← atEnd)

/-- The character after this one. Where blanks are passed over it is the first behind blanks, or the
first in a comment that follows them. -/
def second : Reading (Option Char) := do
  let r ← get
  let tail := r.rest.tail
  if r.extended then
    match tail.dropWhile Text.isBlank with
    | '#' :: comment => return (comment.dropWhile Text.isBlank).head?
    | s => return s.head?
  else return tail.head?

def accept (text : String) : Reading Bool := do
  let r ← get
  if text.toList.isPrefixOf r.rest then
    set { r with rest := r.rest.drop text.length, place := r.place + text.length }
    return true
  return false

def readWhile (p : Char → Bool) : Reading (List Char) := do
  let r ← get
  let taken := r.rest.takeWhile p
  set { r with rest := r.rest.drop taken.length, place := r.place + taken.length }
  return taken

def readSpaced (p : Char → Bool) : Nat → Reading (List Char)
  | 0 => return []
  | n + 1 => do
    match ← peek with
    | none => return []
    | some c =>
      if !p c then return []
      let _ ← next
      return c :: (← readSpaced p n)

/-- The length of what is left, which bounds what can be read. -/
def left : Reading Nat := return (← get).rest.length

end Reading

open Reading

/-- What stands for one character, for one of a set, or for a condition. -/
inductive Primitive
  | literal (l : Literal)
  | property (p : PropertyName)
  | shorthand (s : Shorthand) (negated : Bool)
  | condition (c : Condition)

def isHexDigit (c : Char) : Bool :=
  c.isDigit || ('a' ≤ c && c ≤ 'f') || ('A' ≤ c && c ≤ 'F')

def hexValue (digits : List Char) : Nat :=
  digits.foldl (fun n c =>
    n * 16 + (if c.isDigit then c.toNat - '0'.toNat else c.toLower.toNat - 'a'.toNat + 10)) 0

def charOfHex (digits : List Char) (first last : Nat) : Reading Char :=
  let n := hexValue digits
  if h : n.isValidChar then return Char.ofNatAux n h else fail .hexInvalid first last

def hexDigits : Nat → Reading (List Char)
  | 0 => return []
  | n + 1 => do
    match ← peek with
    | none => fail .escapeAtEnd (← place) (← place)
    | some c =>
      if !isHexDigit c then fail .hexDigit (← place) ((← place) + 1)
      let _ ← next
      return c :: (← hexDigits n)

/-- A character by its number, of `width` digits or in braces. -/
def hexEscape (start width : Nat) : Reading Literal := do
  if !(← next) then fail .escapeAtEnd (← place) (← place)
  let brace ← place
  if (← peek) = some '\x7b' then
    let _ ← next
    let digits ← readSpaced isHexDigit (← left)
    match ← peek with
    | none => fail .escapeAtEnd brace (← place)
    | some c =>
      let last ← place
      if c ≠ '\x7d' then fail .hexDigit last (last + 1)
      let _ ← next
      if digits = [] then fail .hexEmpty brace (← place)
      return ⟨← charOfHex digits (brace + 1) last,⟨start,← place⟩,false⟩
  else
    let digits ← hexDigits width
    return ⟨← charOfHex digits brace (← place),⟨start,← place⟩,width = 2⟩

/-- The name of a property and, after `!=`, `:` or `=`, its value. -/
def splitProperty (negated : Bool) (name : List Char) : PropertyName :=
  let text := String.ofList
  let parts (c : Char) (negated : Bool) : PropertyName :=
    ⟨text (name.takeWhile (· ≠ c)),some (text (name.dropWhile (· ≠ c)).tail),negated⟩
  match (name.zip name.tail).findIdx? (· = ('!','=')) with
  | some i => ⟨text (name.take i),some (text (name.drop (i + 2))),!negated⟩
  | none =>
    if ':' ∈ name then parts ':' negated
    else if '=' ∈ name then parts '=' negated
    else ⟨text name,none,negated⟩

def propertyClass (negated : Bool) : Reading PropertyName := do
  if !(← next) then fail .escapeAtEnd (← place) (← place)
  match ← peek with
  | some '\x7b' =>
    let _ ← next
    let name ← readSpaced (· ≠ '\x7d') (← left)
    if ← atEnd then fail .escapeAtEnd (← place) (← place)
    bump
    return splitProperty negated name
  | some '\\' => fail .propertyInvalid (← place) ((← place) + 1)
  | some c =>
    let _ ← next
    return ⟨String.singleton c,none,negated⟩
  | none => fail .escapeAtEnd (← place) (← place)

/-- The condition after a boundary, where one is named in braces. What does not begin like a name
is left to be read as a count. -/
def namedBoundary (start : Nat) : Reading Boundary := do
  let saved ← get
  if (← peek) ≠ some '\x7b' then return .word
  if !(← next) then fail .boundaryAtEnd start (← place)
  let isNameChar (c : Char) : Bool := c = '-' || c.isAlpha
  if !(← peek).any isNameChar then
    set saved
    return .word
  let first ← place
  let name ← readSpaced isNameChar (← left)
  if (← peek) ≠ some '\x7d' then fail .boundaryUnclosed saved.place (← place)
  let last ← place
  bump
  match String.ofList name with
  | "start" => return .wordStart
  | "end" => return .wordEnd
  | "start-half" => return .noWordBefore
  | "end-half" => return .noWordAfter
  | _ => fail .boundaryUnknown first last

def isMeta (c : Char) : Bool := "\\.+*?()|[]\x7b\x7d^$#&-~".toList.contains c

/-- Signs other than letters, digits and angle brackets stand for themselves. -/
def isEscapable (c : Char) : Bool :=
  isMeta c || (c.toNat < 0x80 && !c.isAlphanum && c ≠ '<' && c ≠ '>')

def controlEscape? : Char → Option Char
  | 'a' => some '\x07'
  | 'f' => some '\x0c'
  | 't' => some '\t'
  | 'n' => some '\n'
  | 'r' => some '\r'
  | 'v' => some '\x0b'
  | _ => none

def escape : Reading Primitive := do
  let start ← place
  bump
  match ← peek with
  | none => fail .escapeAtEnd start (← place)
  | some c =>
    if c.isDigit then fail .backreference start ((← place) + 1)
    match c with
    | 'x' => return .literal (← hexEscape start 2)
    | 'u' => return .literal (← hexEscape start 4)
    | 'U' => return .literal (← hexEscape start 8)
    | 'p' => return .property (← propertyClass false)
    | 'P' => return .property (← propertyClass true)
    | _ =>
      bump
      let literal (c : Char) : Reading Primitive := return .literal ⟨c,⟨start,← place⟩,false⟩
      match c with
      | 'd' => return .shorthand .digit false
      | 'D' => return .shorthand .digit true
      | 's' => return .shorthand .space false
      | 'S' => return .shorthand .space true
      | 'w' => return .shorthand .word false
      | 'W' => return .shorthand .word true
      | 'A' => return .condition .textStart
      | 'z' => return .condition .textEnd
      | 'b' => return .condition (.boundary (← namedBoundary start))
      | 'B' => return .condition (.boundary .notWord)
      | '<' => return .condition (.boundary .wordStart)
      | '>' => return .condition (.boundary .wordEnd)
      | _ =>
        match controlEscape? c with
        | some c => literal c
        | none => if isEscapable c then literal c else fail .escapeUnknown start (← place)

/-- One more character, for itself or behind a backslash, with its place. -/
def primitive (c : Char) : Reading (Primitive × Span) := do
  let first ← place
  if c = '\\' then
    let p ← escape
    return (p,⟨first,← place⟩)
  bump
  return (.literal ⟨c,⟨first,first + 1⟩,false⟩,⟨first,first + 1⟩)

/-- The members of a class so far, the last one first, and where they begin. -/
structure Members where
  items : List ClassTerm
  start : Nat

namespace Members

def push (m : Members) (t : ClassTerm) : Members := { m with items := t :: m.items }

def term (m : Members) : ClassTerm :=
  match m.items.reverse with
  | [] => .empty ⟨m.start,m.start⟩
  | [t] => t
  | t :: ts => .union (t :: ts) ⟨t.place.first,((t :: ts).getLast?.getD t).place.last⟩

end Members

inductive ClassFrame
  /-- A class that is open, with the members of the class around it that were read before. -/
  | opened (outer : Members) (negated : Bool) (place : Span)
  /-- The operand in front of an operator. -/
  | operand (op : ClassOp) (left : ClassTerm)

def unclosedClass {α : Type} : List ClassFrame → Reading α
  | [] => do fail .classUnclosed (← place) (← place)
  | .opened _ _ s :: _ => fail .classUnclosed s.first s.last
  | .operand _ _ :: stack => unclosedClass stack

def settle (right : ClassTerm) : List ClassFrame → ClassTerm × List ClassFrame
  | .operand op left :: stack =>
    (.op op left right ⟨left.place.first,right.place.last⟩,stack)
  | stack => (right,stack)

def here (c : Char) : Reading ClassTerm := do
  let p ← place
  return .literal ⟨c,⟨p,p + 1⟩,false⟩

/-- Dashes at the start of a class stand for themselves. -/
def leadingDashes (start : Nat) : Nat → Members → Reading Members
  | 0,m => return m
  | n + 1,m => do
    if (← peek) = some '-' then
      let dash ← here '-'
      if !(← next) then fail .classUnclosed start start
      leadingDashes start n (m.push dash)
    else return m

/-- The bracket that opens a class, with what only stands for itself right behind it. -/
def openClass (outer : Members) : Reading (ClassFrame × Members) := do
  let start ← place
  if !(← next) then fail .classUnclosed start (← place)
  let negated := (← peek) = some '^'
  if negated then
    if !(← next) then fail .classUnclosed start (← place)
  let m ← leadingDashes start (← left) ⟨[],← place⟩
  let m ←
    if m.items.isEmpty ∧ (← peek) = some ']' then do
      let bracket ← here ']'
      if !(← next) then fail .classUnclosed start (← place)
      pure (m.push bracket)
    else pure m
  return (.opened outer negated ⟨start,← place⟩,m)

def namedClass? : Reading (Option ClassTerm) := do
  let saved ← get
  if !(← accept "[:") then return none
  let negated ← accept "^"
  let name ← readWhile (· ≠ ':')
  match CharSet.ofClassName? (String.ofList name),← accept ":]" with
  | some s,true => return some (.named s negated ⟨saved.place,← place⟩)
  | _,_ =>
    set saved
    return none

def classMember (c : Char) (stack : List ClassFrame) : Reading ClassTerm := do
  let (p,place) ← primitive c
  skip
  if ← atEnd then unclosedClass stack
  let following ← second
  if (← peek) ≠ some '-' ∨ following = some ']' ∨ following = some '-' then
    match p with
    | .literal l => return .literal l
    | .property p => return .property p place
    | .shorthand s negated => return .shorthand s negated place
    | .condition _ => fail .classEscape place.first place.last
  else
    if !(← next) then unclosedClass stack
    match ← peek with
    | none => unclosedClass stack
    | some d =>
      let (q,other) ← primitive d
      match p,q with
      | .literal low,.literal high =>
        if high.char < low.char then fail .classRange place.first other.last
        return .range low high
      | .literal _,_ => fail .classRangeLiteral other.first other.last
      | _,_ => fail .classRangeLiteral place.first place.last

def classBody : Nat → List ClassFrame → Members → Reading Term
  | 0,stack,_ => unclosedClass stack
  | n + 1,stack,m => do
    skip
    let operator (op : ClassOp) : Reading Term := do
      bump
      bump
      let (left,stack) := settle m.term stack
      classBody n (.operand op left :: stack) ⟨[],← place⟩
    match ← peek with
    | none => unclosedClass stack
    | some '[' =>
      match ← namedClass? with
      | some named => classBody n stack (m.push named)
      | none =>
        let (frame,inner) ← openClass m
        classBody n (frame :: stack) inner
    | some ']' =>
      match settle m.term stack with
      | (t,.opened outer negated s :: stack) =>
        bump
        let whole : Span := ⟨s.first,← place⟩
        if stack.isEmpty then return .bracketed t negated whole
        else classBody n stack (outer.push (.bracketed t negated whole))
      | (_,stack) => unclosedClass stack
    | some c =>
      let doubled := (← get).rest.tail.head? = some c
      if doubled ∧ c = '&' then operator .inter
      else if doubled ∧ c = '-' then operator .diff
      else if doubled ∧ c = '~' then operator .symm
      else classBody n stack (m.push (← classMember c stack))

def bracketed : Reading Term := do
  let (frame,m) ← openClass ⟨[],← place⟩
  classBody ((← left) + 1) [frame] m

/-- Flags as they are written, up to the colon or bracket behind them; a dash turns off those behind
it. What was read before is given with its places, the last first. -/
def readFlags : Nat → Bool → Option Span → List (Char × Span) → FlagChanges → Reading FlagChanges
  | 0,_,_,_,_ => do fail .flagAtEnd (← place) (← place)
  | n + 1,on,dash,seen,changes => do
    let first ← place
    let span : Span := ⟨first,first + 1⟩
    match ← peek with
    | none => fail .flagAtEnd first first
    | some c =>
      if c = ':' ∨ c = ')' then
        match dash with
        | some s => fail .flagDangling s.first s.last
        | none => return changes.reverse
      let changes ←
        if c = '-' then pure changes
        else match Flag.ofLetter? c with
          | some flag => pure ((flag,on) :: changes)
          | none => fail .flagUnknown first (first + 1)
      match seen.find? (·.1 = c) with
      | some (_,other) =>
        clash (if c = '-' then .flagRepeatedNegation else .flagDuplicate) span other
      | none =>
        bump
        if ← atEnd then fail .flagAtEnd (← place) (← place)
        if c = '-' then readFlags n false (some span) ((c,span) :: seen) changes
        else readFlags n on none ((c,span) :: seen) changes

def mayStartName (c : Char) : Bool := c = '_' || Text.isLetter c

def mayFollowName (c : Char) : Bool :=
  mayStartName c || Text.isNumber c || c = '.' || c = '[' || c = ']'

def groupName : Reading Unit := do
  let first ← place
  if ← atEnd then fail .groupNameAtEnd first first
  let name ← readWhile (· ≠ '>')
  match name.zipIdx.find? fun (c,i) => !(if i = 0 then mayStartName c else mayFollowName c) with
  | some (_,i) => fail .groupNameInvalid (first + i) (first + i + 1)
  | none =>
    let last ← place
    if ← atEnd then fail .groupNameAtEnd last last
    bump
    if name = [] then fail .groupNameEmpty first first
    match (← get).names.find? (·.1 = name) with
    | some (_,other) => clash .groupNameDuplicate ⟨first,last⟩ other
    | none => modify fun r => { r with names := (name,⟨first,last⟩) :: r.names }

/-- What was read of a group: its parts, the last one first, and the alternatives before them. -/
structure Branches where
  parts : List Term
  start : Nat
  earlier : List Term
  /-- Where the first alternative begins. -/
  first : Nat

namespace Branches

def opened (start : Nat) : Branches := ⟨[],start,[],start⟩

def push (b : Branches) (t : Term) : Branches := { b with parts := t :: b.parts }

def branch (b : Branches) (last : Nat) : Term :=
  match b.parts with
  | [] => .empty
  | [t] => t
  | parts => .concat parts.reverse ⟨b.start,last⟩

def next (b : Branches) (last : Nat) : Branches :=
  { b with parts := [], start := last + 1, earlier := b.branch last :: b.earlier }

def term (b : Branches) (last : Nat) : Term :=
  match b.earlier with
  | [] => b.branch last
  | earlier => .alternation (b.branch last :: earlier).reverse ⟨b.first,last⟩

end Branches

structure GroupFrame where
  outer : Branches
  capturing : Bool
  changes : FlagChanges
  start : Nat
  /-- Whether blanks are passed over outside of it. -/
  extended : Bool

/-- What an opening bracket begins: a group, or flags for the rest of the group around it. -/
def openGroup (outer : Branches) : Reading (FlagChanges ⊕ GroupFrame) := do
  let start ← place
  let frame : GroupFrame := ⟨outer,true,[],start,(← get).extended⟩
  let _ ← next
  if (← accept "?=") || (← accept "?!") || (← accept "?<=") || (← accept "?<!") then
    fail .lookAround start (← place)
  let inner ← place
  if (← accept "?P<") || (← accept "?<") then
    groupName
    return .inr frame
  if !(← accept "?") then return .inr frame
  if ← atEnd then fail .groupUnclosed start (start + 1)
  let changes ← readFlags ((← left) + 1) true none [] []
  let closing ← peek
  bump
  if closing = some ')' then
    if changes.isEmpty then fail .repetitionMissing inner inner
    return .inl changes
  return .inr { frame with capturing := false, changes := changes }

/-- Turns the passing over of blanks on or off, if the flags say so. -/
def applyExtended (changes : FlagChanges) : Reading Unit :=
  modify fun r => { r with
    extended := ((changes.find? (·.1 = .extended)).map (·.2)).getD r.extended }

/-- The term that a repetition operator is applied to, and what stands before it. -/
def repeatable (b : Branches) : Reading (Term × Branches) := do
  match b.parts with
  | t :: parts =>
    if t.isVoid then fail .repetitionMissing (← place) (← place)
    return (t,{ b with parts := parts })
  | [] => fail .repetitionMissing (← place) (← place)

def decimal : Reading (Except Found Nat) := do
  let _ ← readWhile Text.isBlank
  let first ← place
  let digits ← readSpaced Char.isDigit (← left)
  let last ← place
  let _ ← readWhile Text.isBlank
  skip
  if digits = [] then return .error ⟨.countEmpty,⟨first,last⟩,none⟩
  let n := digits.foldl (fun n c => n * 10 + (c.toNat - '0'.toNat)) 0
  if UInt32.size ≤ n then return .error ⟨.decimalInvalid,⟨first,last⟩,none⟩
  return .ok n

def counted : Reading (Nat × Option Nat) := do
  let start ← place
  if !(← next) then fail .countUnclosed start (← place)
  let given (d : Except Found Nat) : Reading Nat :=
    match d with
    | .ok n => pure n
    | .error e => throw e
  let least ← decimal
  if ← atEnd then fail .countUnclosed start (← place)
  let range ←
    if (← peek) = some ',' then do
      if !(← next) then fail .countUnclosed start (← place)
      if (← peek) = some '\x7d' then pure (← given least,none)
      else do
        let low ← given least
        pure (low,some (← given (← decimal)))
    else do
      let n ← given least
      pure (n,some n)
  if (← peek) ≠ some '\x7d' then fail .countUnclosed start (← place)
  let _ ← next
  if (← peek) = some '?' then bump
  if range.2.any (· < range.1) then fail .countInvalid start (← place)
  return range

def body : Nat → List GroupFrame → Branches → Reading Term
  | 0,_,b => return b.term (← place)
  | n + 1,stack,b => do
    skip
    let simple (t : Term) : Reading Term := do
      bump
      body n stack (b.push t)
    let repetition (least : Nat) (most : Option Nat) : Reading Term := do
      let (t,b) ← repeatable b
      bump
      if (← peek) = some '?' then bump
      body n stack (b.push (.repeated t least most ⟨t.place.first,← place⟩))
    let first ← place
    let span : Span := ⟨first,first + 1⟩
    match ← peek with
    | none =>
      match stack with
      | [] => return b.term first
      | frame :: _ => fail .groupUnclosed frame.start (frame.start + 1)
    | some '(' =>
      match ← openGroup b with
      | .inl changes =>
        applyExtended changes
        body n stack (b.push (.flags changes))
      | .inr frame =>
        applyExtended frame.changes
        body n (frame :: stack) (.opened (← place))
    | some ')' =>
      match stack with
      | [] => fail .groupUnopened first (first + 1)
      | frame :: stack =>
        modify fun r => { r with extended := frame.extended }
        bump
        body n stack (frame.outer.push
          (.group (b.term first) frame.capturing frame.changes ⟨frame.start,first + 1⟩))
    | some '|' =>
      bump
      body n stack (b.next first)
    | some '[' => body n stack (b.push (← bracketed))
    | some '?' => repetition 0 (some 1)
    | some '*' => repetition 0 none
    | some '+' => repetition 1 none
    | some '\x7b' =>
      let (t,b) ← repeatable b
      let (least,most) ← counted
      body n stack (b.push (.repeated t least most ⟨t.place.first,← place⟩))
    | some '.' => simple (.dot span)
    | some '^' => simple (.condition .lineStart span)
    | some '$' => simple (.condition .lineEnd span)
    | some c =>
      let (p,s) ← primitive c
      body n stack (b.push (match p with
        | .literal l => .literal l
        | .property p => .property p s
        | .shorthand k negated => .shorthand k negated s
        | .condition c => .condition c s))

def readTerm (text : String) : Except Found Term :=
  let reader : Reader := ⟨text.toList,0,false,[]⟩
  (body (text.length + 1) [] (.opened 0) reader).map (·.1)

end Pattern
end CommandShell
