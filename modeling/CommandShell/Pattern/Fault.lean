/-! What makes a text no pattern, and how it is reported.
The report shows the text with marks under the places at fault. -/
namespace CommandShell
namespace Pattern

/-- Positions in a text, the last one excluded. -/
structure Span where
  first : Nat
  last : Nat
  deriving DecidableEq

inductive Fault
  | classEscape
  | classRange
  | classRangeLiteral
  | classUnclosed
  | decimalEmpty
  | decimalInvalid
  | hexEmpty
  | hexInvalid
  | hexDigit
  | escapeAtEnd
  | escapeUnknown
  | flagDangling
  | flagDuplicate
  | flagRepeatedNegation
  | flagAtEnd
  | flagUnknown
  | groupNameDuplicate
  | groupNameEmpty
  | groupNameInvalid
  | groupNameAtEnd
  | groupUnclosed
  | groupUnopened
  | nestedTooDeep
  | countInvalid
  | countEmpty
  | countUnclosed
  | repetitionMissing
  | boundaryUnclosed
  | boundaryUnknown
  | boundaryAtEnd
  | propertyInvalid
  | propertyUnknown
  | propertyValueUnknown
  | backreference
  | lookAround
  /-- What only makes sense beyond ASCII stands where bytes are matched. -/
  | notBytes
  /-- The pattern could match bytes that are no text. -/
  | notText
  deriving DecidableEq

def nestLimit : Nat := 250

def Fault.message : Fault → String
  | classEscape => "invalid escape sequence found in character class"
  | classRange => "invalid character class range, the start must be <= the end"
  | classRangeLiteral => "invalid range boundary, must be a literal"
  | classUnclosed => "unclosed character class"
  | decimalEmpty => "decimal literal empty"
  | decimalInvalid => "decimal literal invalid"
  | hexEmpty => "hexadecimal literal empty"
  | hexInvalid => "hexadecimal literal is not a Unicode scalar value"
  | hexDigit => "invalid hexadecimal digit"
  | escapeAtEnd => "incomplete escape sequence, reached end of pattern prematurely"
  | escapeUnknown => "unrecognized escape sequence"
  | flagDangling => "dangling flag negation operator"
  | flagDuplicate => "duplicate flag"
  | flagRepeatedNegation => "flag negation operator repeated"
  | flagAtEnd => "expected flag but got end of regex"
  | flagUnknown => "unrecognized flag"
  | groupNameDuplicate => "duplicate capture group name"
  | groupNameEmpty => "empty capture group name"
  | groupNameInvalid => "invalid capture group character"
  | groupNameAtEnd => "unclosed capture group name"
  | groupUnclosed => "unclosed group"
  | groupUnopened => "unopened group"
  | nestedTooDeep =>
    "exceed the maximum number of nested parentheses/brackets (" ++ toString nestLimit ++ ")"
  | countInvalid => "invalid repetition count range, the start must be <= the end"
  | countEmpty => "repetition quantifier expects a valid decimal"
  | countUnclosed => "unclosed counted repetition"
  | repetitionMissing => "repetition operator missing expression"
  | boundaryUnclosed =>
    "special word boundary assertion is either unclosed or contains an invalid character"
  | boundaryUnknown => "unrecognized special word boundary assertion, " ++
    "valid choices are: start, end, start-half or end-half"
  | boundaryAtEnd => "found either the beginning of a special word boundary or a bounded " ++
    "repetition on a \\b with an opening brace, but no closing brace"
  | propertyInvalid => "invalid Unicode character class"
  | propertyUnknown => "Unicode property not found"
  | propertyValueUnknown => "Unicode property value not found"
  | backreference => "backreferences are not supported"
  | lookAround => "look-around, including look-ahead and look-behind, is not supported"
  | notBytes => "Unicode not allowed here"
  | notText => "pattern can match invalid UTF-8"

/-- A fault, where it is, and the place of what it clashes with. -/
structure Found where
  fault : Fault
  place : Span
  clash : Option Span
  deriving DecidableEq

/-- Where a position is in a text: the number of its line and of its column, counted from 0. -/
def lineAndColumn (pattern : List Char) (position : Nat) : Nat × Nat :=
  let before := pattern.take position
  (before.count '\n',(before.reverse.takeWhile (· ≠ '\n')).length)

/-- The lines of a text without their line breaks, of which a return before the end of the line is a
part. -/
def shownLines (pattern : List Char) : List (List Char) :=
  let lines := pattern.splitOn '\n'
  let ended := lines.dropLast.map fun line =>
    if line.getLast? = some '\r' then line.dropLast else line
  match lines.getLast? with
  | none | some [] => ended
  | some last => ended ++ [last]

def marks : Nat → List Span → List Char
  | _,[] => []
  | done,s :: rest =>
    let width := max 1 (s.last - s.first)
    List.replicate (s.first - done) ' ' ++ List.replicate width '^' ++
      marks (max done s.first + width) rest

namespace Found

def places (f : Found) : List Span :=
  match f.clash with
  | none => [f.place]
  | some other => if other.first ≤ f.place.first then [other,f.place] else [f.place,other]

def columns (f : Found) (pattern : List Char) (n : Nat) : List Span :=
  f.places.filterMap fun s =>
    let (line,first) := lineAndColumn pattern s.first
    let (lastLine,last) := lineAndColumn pattern s.last
    if line = n ∧ lastLine = n then some ⟨first,last⟩ else none

def overLines? (pattern : List Char) (s : Span) : Option String :=
  let (line,first) := lineAndColumn pattern s.first
  let (lastLine,last) := lineAndColumn pattern s.last
  if line = lastLine then none
  else some ("on line " ++ toString (line + 1) ++ " (column " ++ toString (first + 1) ++
    ") through line " ++ toString (lastLine + 1) ++ " (column " ++ toString last ++ ")\n")

/-- The lines of a pattern with marks under the places at fault. Lines are numbered if there are
several. -/
def shown (f : Found) (pattern : List Char) (numbered : Bool) : String :=
  let lines := shownLines pattern
  let count := lines.length + if pattern.getLast? = some '\n' then 1 else 0
  let width := if numbered then (toString count).length else 2
  String.join (lines.zipIdx.map fun (line,n) =>
    let number := toString (n + 1)
    let lead := if numbered
      then "".pushn ' ' (width - number.length) ++ number ++ ": " else "    "
    let below := match f.columns pattern n with
      | [] => ""
      | spans => "".pushn ' ' (width + 2) ++ String.ofList (marks 0 spans) ++ "\n"
    lead ++ String.ofList line ++ "\n" ++ below)

def message (f : Found) (pattern : String) : String :=
  let text := pattern.toList
  let body :=
    if '\n' ∈ text then
      let divider := "".pushn '~' 79 ++ "\n"
      divider ++ f.shown text true ++ divider ++
        String.join (f.places.filterMap (overLines? text))
    else f.shown text false
  "regex parse error:\n" ++ body ++ "error: " ++ f.fault.message

end Found
end Pattern
end CommandShell
