import CommandShell.Text.Folding
import CommandShell.Text.Letter

/-! Sets of characters, as the runs of numbers that they are made of. -/
namespace CommandShell

/-- The first and last number of each run, in ascending order and with gaps between the runs. -/
structure CharSet where
  runs : List (Nat × Nat)
  deriving DecidableEq

namespace CharSet

def joinRuns (current : Nat × Nat) : List (Nat × Nat) → List (Nat × Nat)
  | [] => [current]
  | run :: rest =>
    if run.1 ≤ current.2 + 1 then joinRuns (current.1,max current.2 run.2) rest
    else current :: joinRuns run rest

def lastNumber : Nat := 0x10ffff

def surrogates : Nat × Nat := (0xd800,0xdfff)

def cut (hole run : Nat × Nat) : List (Nat × Nat) :=
  [(run.1,min run.2 (hole.1 - 1)),(max run.1 (hole.2 + 1),run.2)]

/-- The characters with a number in any of the runs; a run that ends before it starts holds none. -/
def ofRuns (runs : List (Nat × Nat)) : CharSet :=
  let runs := (runs.flatMap (cut surrogates)).filter fun run => run.1 ≤ run.2
  match runs.mergeSort fun a b => a.1 ≤ b.1 with
  | [] => ⟨[]⟩
  | first :: rest => ⟨joinRuns first rest⟩

def empty : CharSet := ⟨[]⟩

def gaps (start : Nat) : List (Nat × Nat) → List (Nat × Nat)
  | [] => [(start,lastNumber)]
  | run :: rest => (start,run.1 - 1) :: gaps (run.2 + 1) rest

def compl (s : CharSet) : CharSet :=
  match s.runs with
  | (0,last) :: rest => ofRuns (gaps (last + 1) rest)
  | runs => ofRuns (gaps 0 runs)

def union (a b : CharSet) : CharSet := ofRuns (a.runs ++ b.runs)

def inter (a b : CharSet) : CharSet := compl (union (compl a) (compl b))

def diff (a b : CharSet) : CharSet := inter a (compl b)

def symm (a b : CharSet) : CharSet := diff (union a b) (inter a b)

def contains (s : CharSet) (n : Nat) : Bool := s.runs.any fun run => run.1 ≤ n && n ≤ run.2

def range (low high : Char) : CharSet := ofRuns [(low.toNat,high.toNat)]

def one (c : Char) : CharSet := range c c

def ofRanges (ranges : List (Char × Char)) : CharSet :=
  ofRuns (ranges.map fun r => (r.1.toNat,r.2.toNat))

def ofChars (chars : List Char) : CharSet := ofRanges (chars.map fun c => (c,c))

def all : CharSet := compl empty

def isAscii (s : CharSet) : Bool := s.runs.all fun run => run.2 < 0x80

def single? (s : CharSet) : Option Nat :=
  match s.runs with
  | [(first,last)] => if first = last then some first else none
  | _ => none

/-- The set, and all characters that differ from one in it in case only. -/
def folded (s : CharSet) : CharSet :=
  let down := Text.foldPairs.filter fun p => s.contains p.1
  let t := ofRuns (s.runs ++ down.map fun p => (p.2,p.2))
  let up := Text.foldPairs.filter fun p => t.contains p.2
  ofRuns (t.runs ++ up.map fun p => (p.1,p.1))

def foldedAscii (s : CharSet) : CharSet :=
  let letters := Text.foldPairs.filter fun p => p.1 < 0x80
  ofRuns (s.runs ++ letters.flatMap fun p =>
    if s.contains p.1 || s.contains p.2 then [(p.1,p.1),(p.2,p.2)] else [])

def categoryRuns (wanted : List Text.Category) (last : Nat) :
    List (Nat × Text.Category) → List (Nat × Nat)
  | [] => []
  | (start,c) :: rest =>
    let stop := (rest.head?.map fun next => next.1 - 1).getD last
    if wanted.contains c then (start,stop) :: categoryRuns wanted last rest
    else categoryRuns wanted last rest

def ofCategories (wanted : List Text.Category) : CharSet :=
  ofRuns (categoryRuns wanted lastNumber Text.Category.runs)

def digit : CharSet := ofCategories [.nd]

/-- Letters with the marks on them, digits and connectors of all scripts, and what joins letters or
keeps them apart. -/
def word : CharSet :=
  union (ofCategories [.lu,.ll,.lt,.lm,.lo,.nl,.mn,.mc,.me,.nd,.pc])
    (ofRuns (Text.enclosedLetters ++ [(0x200c,0x200d)]))

def space : CharSet :=
  ofRuns [(9,13),(0x20,0x20),(0x85,0x85),(0xa0,0xa0),(0x1680,0x1680),(0x2000,0x200a),
    (0x2028,0x2029),(0x202f,0x202f),(0x205f,0x205f),(0x3000,0x3000)]

namespace Ascii

def digit : CharSet := range '0' '9'
def lower : CharSet := range 'a' 'z'
def upper : CharSet := range 'A' 'Z'
def letter : CharSet := union lower upper
def word : CharSet := union (union letter digit) (one '_')
def space : CharSet := ofRanges [('\t','\r'),(' ',' ')]
def hexDigit : CharSet := ofRanges [('0','9'),('A','F'),('a','f')]

end Ascii

end CharSet
end CommandShell
