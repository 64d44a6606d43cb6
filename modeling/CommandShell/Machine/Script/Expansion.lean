import CommandShell.Machine.Script.Arithmetic
import CommandShell.Machine.Script.Fields
import CommandShell.Machine.Script.Process

/-! What words come to: values in the place of parameters, commands and sums, cut into fields. -/
namespace CommandShell
namespace Script

structure Purpose where
  /-- Its values are cut into fields. -/
  cut : Bool
  /-- Its letters are cut as values are. -/
  inner : Bool

/-- What can be run inside a run. -/
structure Inner where
  expand : Purpose → Word → Run (List Span)
  /-- Runs a command; the flag says that its failure is expected. -/
  run : Bool → Command → Run Unit
  text : Bool → String → Run Unit
  /-- Puts a program in the place of the process: its name among the tools, and its arguments. -/
  start : String → List String → Run Unit

namespace Run

def separators : Run (List Char) := do
  return ((← value? "IFS").map String.toList).getD defaultSeparators

def joinedArgs : Run String := do
  let between := match ← value? "IFS" with
    | none => " "
    | some text => String.ofList (text.toList.take 1)
  return between.intercalate (← get).args

def optionLetters : Run String := do
  return String.ofList ("upbaCEVvxsnmiIfe".toList.filter (← get).options.contains)

/-- The value of a parameter other than a list of all arguments. -/
def parameter? (name : String) : Run (Option String) := do
  let p ← get
  match name with
  | "?" => return some (toString p.status)
  | "#" => return some (toString p.args.length)
  | "$" => return some (toString p.number)
  | "!" => return p.lastJob.map toString
  | "-" => return some (← optionLetters)
  | name =>
    match name.toNat? with
    | some 0 => return some p.name
    | some n => return p.args[n - 1]?
    | none => value? name

end Run

namespace Inner

open Run

def whole (inner : Inner) (w : Word) : Run (List Letter) := do
  return wholeOf (← inner.expand ⟨false,false⟩ w)

def value (inner : Inner) (w : Word) : Run String := do return textOf (← inner.whole w)

def parameter (inner : Inner) (u : Purpose) (name : String) (form : Form) (word : Word)
    (quoted : Bool) : Run (List Span) := do
  let all := name = "@" || name = "*"
  let args := (← get).args
  let value? ← if all then some <$> joinedArgs else parameter? name
  let present (emptyToo : Bool) : Bool := value?.any fun v => !emptyToo || v ≠ ""
  let cut : Cut := if u.cut && !quoted then .atSeparators else .never
  let ofText (text : String) : List Span := [.ofText cut quoted text]
  let apart? : Option Cut :=
    if all && u.cut && quoted && name = "@" then some .atGaps
    else if all && u.cut && !quoted then some .atSeparators
    else none
  let ofArgs (cut : Cut) (args : List String) : List Span :=
    if args.isEmpty then [] else [.ofArgs cut quoted args]
  let spans : List Span := match apart? with
    | some cut => ofArgs cut args
    | none => (value?.map ofText).getD []
  let demanded : Run Unit := do
    if value?.isNone && (← option 'u') then fail (name ++ ": parameter not set")
  match form with
  | .plain => do
    demanded
    return spans
  | .length => do
    demanded
    return ofText (toString (value?.getD "").length)
  | .fallback emptyToo =>
    if present emptyToo then return spans else inner.expand { u with inner := true } word
  | .replace emptyToo =>
    if present emptyToo then inner.expand { u with inner := true } word else return []
  | .assign emptyToo => do
    if present emptyToo then return spans
    let text ← inner.value word
    unless isName name do fail (name ++ ": bad variable name")
    assign name text
    return ofText text
  | .demand emptyToo => do
    if present emptyToo then return spans
    let text ← inner.value word
    let report := if !word.isEmpty then text
      else "parameter not set" ++ if emptyToo then " or null" else ""
    fail (name ++ ": " ++ report)
  | .cut front longest => do
    demanded
    match value? with
    | none => return []
    | some value => do
      let pattern ← inner.whole word
      return match apart? with
        | some cut => ofArgs cut (cutMatches front longest pattern args)
        | none => ofText (cutMatch front longest pattern value)
  | .unknown => fail "Bad substitution"

/-- What a command writes, without the line breaks at its end. -/
def substitute (c : Run Unit) : Run String := do
  let (k,_,writer) ← openPipe ""
  let (status,_) ← forked do
    connect 1 writer
    c
  let p ← get
  let written := (p.world.pipes[k]?.getD "").toList.filter (· ≠ '\x00')
  set { p with
    substituted := status
    world := { p.world with pipes := p.world.pipes.setIfInBounds k "" } }
  return String.ofList (written.reverse.dropWhile (· = '\n')).reverse

def evaluate (inner : Inner) (w : Word) : Run String := do
  let text ← inner.value w
  let p ← get
  match sum (fun name => (p.vars[name]?).bind Variable.value) text with
  | .ok (a,changes) => do
    for (name,value) in changes.reverse do
      assign name (toString value.toInt)
    return toString a.toInt
  | .error (.expression fault) =>
    fail ("arithmetic expression: " ++ fault ++ ": \"" ++ text ++ "\"")
  | .error (.notNumber value) => fail ("Illegal number: " ++ value)

def piece (inner : Inner) (process : Run Unit → Run Unit) (u : Purpose) : Piece → Run (List Span)
  | .letter c quoted =>
    let cut : Cut := if u.cut && u.inner && !quoted then .atSeparators else .never
    return [⟨cut,[.letter ⟨c,quoted⟩]⟩]
  | .mark => return [⟨.never,[.mark]⟩]
  | .parameter name form word quoted => inner.parameter u name form word quoted
  | .command c quoted => do
    let text ← substitute (process (inner.run false c))
    return [.ofText (if u.cut && !quoted then .atSeparators else .never) quoted text]
  | .sum w quoted => do
    let text ← inner.evaluate w
    return [.ofText (if u.cut && !quoted then .atSeparators else .never) quoted text]

def isLetter : Piece → Bool
  | .letter _ _ => true
  | _ => false

/-- Adds the spans of a piece. Letters in a row that are cut alike come into one span. -/
def addSpans (before : List Span) (together : Bool) (new : List Span) : List Span :=
  match before,new with
  | last :: more,[s] =>
    if together && last.cut = s.cut then ⟨s.cut,last.cells ++ s.cells⟩ :: more else s :: before
  | before,new => new.reverse ++ before

def spans (inner : Inner) (process : Run Unit → Run Unit) (u : Purpose) (w : Word) :
    Run (List Span) := do
  let step (state : List Span × Bool) (p : Piece) : Run (List Span × Bool) := do
    return (addSpans state.1 (state.2 && isLetter p) (← inner.piece process u p),isLetter p)
  return (← w.foldlM step ([],false)).1.reverse

def tilde (home : String) (inAssignment : Bool) (w : Word) : Word :=
  let ends : Word → Bool
    | [] => true
    | .letter '/' _ :: _ => true
    | .letter ':' false :: _ => inAssignment
    | _ => false
  match w with
  | .letter '~' false :: rest =>
    if ends rest then home.toList.map (Piece.letter · true) ++ rest else w
  | w => w

/-- A word with the home directory in the place of tildes, also behind colons in assignments. -/
def homed (inAssignment : Bool) (w : Word) : Run Word := do
  match ← value? "HOME" with
  | none => return w
  | some home =>
    if !inAssignment then return tilde home false w
    let rec go : Word → Word
      | .letter ':' false :: rest => .letter ':' false :: tilde home true (go rest)
      | p :: rest => p :: go rest
      | [] => []
    return tilde home true (go w)

def fields (inner : Inner) (w : Word) : Run (List String) := do
  let spans ← inner.expand ⟨true,false⟩ (← homed false w)
  let fields := fieldsOf (← separators) spans
  let p ← get
  if p.options.contains 'f' then return fields.map textOf
  else return fields.flatMap (pathsOf p.world.disk p.directory)

def assigned (inner : Inner) (w : Word) : Run String := do inner.value (← homed true w)

end Inner
end Script
end CommandShell
