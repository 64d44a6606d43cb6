import CommandShell.Pattern

/-! How much memory the automaton of a pattern takes.
A pattern is turned into an automaton that reads the bytes of a text, forwards, and into one that
reads them backwards. A pattern that takes too much of either is refused. -/
namespace CommandShell
namespace CharSet

abbrev ByteRuns := List (Nat × Nat)

def bytes (n : Nat) : List Nat :=
  if n < 0x80 then [n]
  else if n < 0x800 then [0xc0 + n / 0x40,0x80 + n % 0x40]
  else if n < 0x10000 then [0xe0 + n / 0x1000,0x80 + n / 0x40 % 0x40,0x80 + n % 0x40]
  else [0xf0 + n / 0x40000,0x80 + n / 0x1000 % 0x40,0x80 + n / 0x40 % 0x40,0x80 + n % 0x40]

/-- Where a run has to be cut for the first time, if it is not one run of bytes at every position:
the last number of the first part. -/
def cutAt? (first last : Nat) : Option Nat :=
  match [0x7f,0x7ff,0xffff].find? fun n => first ≤ n ∧ n < last with
  | some n => some n
  | none =>
    if last < 0x80 then none
    else [0x40,0x1000,0x40000].findSome? fun width =>
      if first / width = last / width then none
      else if first % width ≠ 0 then some (first / width * width + width - 1)
      else if last % width ≠ width - 1 then some (last / width * width - 1)
      else none

/-- The byte runs of a run of numbers, in ascending order; no run has to be cut more than `n` times
in a row. -/
def byteRuns : Nat → Nat → Nat → List ByteRuns
  | 0,first,last => [(bytes first).zip (bytes last)]
  | n + 1,first,last =>
    match cutAt? first last with
    | none => [(bytes first).zip (bytes last)]
    | some middle => byteRuns n first middle ++ byteRuns n (middle + 1) last

def allByteRuns (s : CharSet) : List ByteRuns :=
  s.runs.flatMap fun run => byteRuns 16 run.1 run.2

def gather : List ByteRuns → List ((Nat × Nat) × List ByteRuns)
  | [] => []
  | [] :: more => gather more
  | (run :: rest) :: more =>
    match gather more with
    | (next,rests) :: groups =>
      if run = next then (run,rest :: rests) :: groups
      else (run,[rest]) :: (next,rests) :: groups
    | [] => [(run,[rest])]

/-- A state of the forward automaton: the bytes it goes on with, and where to. -/
abbrev ForwardState := List ((Nat × Nat) × Nat)

/-- The number of the state that reads the lists, after all states so far; equal states are one.
The number 0 is the state in which a character has been read. -/
def forwardState : Nat → List ByteRuns → List ForwardState → Nat × List ForwardState
  | 0,_,states => (0,states)
  | depth + 1,lists,states =>
    let groups := gather lists
    if groups = [] then (0,states)
    else
      let (state,states) := groups.foldl (fun (state,states) (run,rests) =>
        let (next,states) := forwardState depth rests states
        (state ++ [(run,next)],states)) (([] : ForwardState),states)
      match states.idxOf? state with
      | some i => (states.length - i,states)
      | none => (states.length + 1,state :: states)

/-- How many states read the lists backwards: lists that begin alike share states, as long as they
stand next to each other. -/
def backwardStates : ByteRuns → List ByteRuns → Nat
  | _,[] => 0
  | last,runs :: rest =>
    let shared := (last.zip runs).takeWhile (fun p => p.1 = p.2)
    runs.length - shared.length + backwardStates runs rest

end CharSet

namespace Pattern

def stateSize : Nat := 32
def choiceSize : Nat := 4
def runSize : Nat := 8

def sizeLimit : Nat := 10 * 1024 * 1024

def setSize (backward : Bool) (s : CharSet) : Nat :=
  match s.single? with
  | some n => stateSize * (CharSet.bytes n).length
  | none =>
    if s = .empty then stateSize
    else if s.isAscii then 2 * stateSize + runSize * s.runs.length
    else if backward then
      let lists := s.allByteRuns
      2 * stateSize + choiceSize * lists.length + stateSize * CharSet.backwardStates [] lists
    else
      let states := (CharSet.forwardState 5 s.allByteRuns []).2
      stateSize * (states.length + 1) + runSize * states.flatten.length

/-- The fewest bytes that a pattern matches; nothing if it matches nothing at all. -/
def leastBytes? : Pattern → Option Nat
  | empty | condition _ => some 0
  | one s => s.runs.head?.map fun run => (CharSet.bytes run.1).length
  | seq p q => do return (← p.leastBytes?) + (← q.leastBytes?)
  | alt p q => do return min (← p.leastBytes?) (← q.leastBytes?)
  | repeated p least _ => p.leastBytes?.map (· * least)
  | group p => p.leastBytes?

def isWidthless : Pattern → Bool
  | empty | condition _ => true
  | one _ => false
  | seq p q | alt p q => p.isWidthless && q.isWidthless
  | repeated p _ most => p.isWidthless || most = some 0
  | group p => p.isWidthless

def alternatives : Pattern → Nat
  | alt p q => p.alternatives + q.alternatives
  | _ => 1

/-- What the states of a pattern take; inside of a choice, where the states for the choice are
counted already. -/
def size (backward : Bool) (inChoice : Bool) : Pattern → Nat
  | empty | condition _ => stateSize
  | one s => setSize backward s
  | seq p q => p.size backward false + q.size backward false
  | alt p q =>
    let choice := if inChoice then 0
      else 2 * stateSize + choiceSize * (p.alternatives + q.alternatives)
    choice + p.size backward true + q.size backward true
  | group p => (if backward then 0 else 2 * stateSize) + p.size backward false
  | repeated p least most =>
    let inner := p.size backward false
    let fork := stateSize + 2 * choiceSize
    match least,most with
    | 0,none =>
      if p.leastBytes?.any (0 < ·) then fork + inner else 2 * fork + stateSize + inner
    | least,none => fork + least * inner
    | 0,some 1 => fork + inner + stateSize
    | least,some most =>
      if least = most then least * inner
      else (if least = 0 then stateSize else least * inner) + stateSize +
        (most - least) * (fork + inner)

def isAnchored (backward : Bool) : Pattern → Bool
  | condition .textStart => !backward
  | condition .textEnd => backward
  | seq p q =>
    if backward then q.isAnchored true || (q.isWidthless && p.isAnchored true)
    else p.isAnchored false || (p.isWidthless && q.isAnchored false)
  | alt p q => p.isAnchored backward && q.isAnchored backward
  | repeated p least _ => 0 < least && p.isAnchored backward
  | group p => p.isAnchored backward
  | _ => false

/-- What the whole automaton takes. Unless the pattern is tied to the start, the automaton passes
over what stands before a match. -/
def automatonSize (backward : Bool) (p : Pattern) : Nat :=
  let lead := if p.isAnchored backward then stateSize
    else 3 * stateSize + runSize + 2 * choiceSize
  lead + (group p).size backward false + stateSize

def isTooLarge (p : Pattern) : Bool :=
  sizeLimit < p.automatonSize false || sizeLimit < p.automatonSize true

end Pattern
end CommandShell
