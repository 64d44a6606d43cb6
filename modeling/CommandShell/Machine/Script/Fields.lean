import CommandShell.Machine.Script.Matching

/-! How words are cut into fields after values were put into them. -/
namespace CommandShell
namespace Script

/-- A letter of an expanded word, or what stands between letters. -/
inductive Cell
  | letter (l : Letter)
  /-- A quote begins. -/
  | mark
  | gap
  deriving DecidableEq

inductive Cut
  | never
  | atSeparators
  | atGaps
  deriving DecidableEq

structure Span where
  cut : Cut
  cells : List Cell

namespace Span

def ofText (cut : Cut) (quoted : Bool) (text : String) : Span :=
  ⟨cut,text.toList.map fun c => .letter ⟨c,quoted⟩⟩

def ofArgs (cut : Cut) (quoted : Bool) (args : List String) : Span :=
  ⟨cut,(args.map fun arg => (ofText cut quoted arg).cells).intersperse [.gap] |>.flatten⟩

end Span

def defaultSeparators : List Char := [' ','\t','\n']

namespace Cell

def isSeparator (separators : List Char) : Cell → Bool
  | letter l => separators.contains l.c
  | mark => false
  | gap => true

/-- A separator of which many count as one. -/
def isBlank : Cell → Bool
  | letter l => defaultSeparators.contains l.c
  | mark => false
  | gap => true

end Cell

/-- The fields that are finished, and the cells of the one that is being made; in both the last one
comes first. -/
structure Fields where
  done : List (List Cell)
  current : List Cell

namespace Fields

def empty : Fields := ⟨[],[]⟩

def add (f : Fields) (c : Cell) : Fields := { f with current := c :: f.current }

def close (f : Fields) : Fields := ⟨f.current.reverse :: f.done,[]⟩

/-- Separators behind one that ended a field; one of them that is not blank still belongs to it if
the first was blank. -/
def skip (separators : List Char) : Bool → List Cell → List Cell
  | _,[] => []
  | blank,c :: rest =>
    if !c.isSeparator separators then c :: rest
    else if c.isBlank then skip separators blank rest
    else if blank then skip separators false rest
    else c :: rest

theorem length_skip_le (separators : List Char) (blank : Bool) (cells : List Cell) :
    (skip separators blank cells).length ≤ cells.length := by
  induction cells generalizing blank with
  | nil => simp [skip]
  | cons c rest ih =>
    simp only [skip]
    split
    · simp
    split
    · exact Nat.le_succ_of_le (ih blank)
    split
    · exact Nat.le_succ_of_le (ih false)
    · simp

/-- Cuts cells at separators. Behind arguments that were kept apart, each separator ends a field. -/
def cutAt (separators : List Char) (afterGaps : Bool) (f : Fields) : List Cell → Fields
  | [] => f
  | c :: rest =>
    if !c.isSeparator separators then cutAt separators afterGaps (f.add c) rest
    else if afterGaps then cutAt separators afterGaps f.close rest
    else if c.isBlank && f.current.isEmpty then cutAt separators afterGaps f rest
    else cutAt separators afterGaps f.close (skip separators c.isBlank rest)
termination_by cells => cells.length
decreasing_by
  · simp
  · simp
  · simp
  · simpa using Nat.lt_succ_of_le (length_skip_le separators _ rest)

def cutGaps (f : Fields) (cells : List Cell) : Fields :=
  cells.foldl (fun f c => if c = .gap then f.close else f.add c) f

/-- Cuts spans one after another; the flag tells whether the last one that was cut was cut at
gaps. -/
def cutSpans (separators : List Char) : Bool → Fields → List Span → Bool × Fields
  | afterGaps,f,[] => (afterGaps,f)
  | afterGaps,f,s :: rest =>
    match s.cut with
    | .never => cutSpans separators afterGaps (s.cells.foldl add f) rest
    | .atSeparators => cutSpans separators false (cutAt separators afterGaps f s.cells) rest
    | .atGaps => cutSpans separators true (f.cutGaps s.cells) rest

end Fields

def lettersOf (cells : List Cell) : List Letter :=
  cells.filterMap fun
    | .letter l => some l
    | _ => none

def fieldsOf (separators : List Char) (spans : List Span) : List (List Letter) :=
  let (afterGaps,f) := Fields.cutSpans separators false .empty spans
  let f := if afterGaps || !f.current.isEmpty then f.close else f
  f.done.reverse.map lettersOf

def wholeOf (spans : List Span) : List Letter := lettersOf (spans.flatMap Span.cells)

def textOf (letters : List Letter) : String := String.ofList (letters.map Letter.c)

end Script
end CommandShell
