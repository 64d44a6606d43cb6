import CommandShell.Machine.Disk

/-! Patterns of scripts: a star stands for any text, a question mark for any letter, brackets for a
letter of a set. Quoted letters stand for themselves. -/
namespace CommandShell
namespace Script

structure Letter where
  c : Char
  quoted : Bool
  deriving DecidableEq

inductive Glob
  | letter (c : Char)
  | any
  | many
  /-- A letter between two bounds, for some of these, or for none. -/
  | set (negated : Bool) (ranges : List (Char × Char))
  deriving DecidableEq

namespace Glob

def classRanges? : String → Option (List (Char × Char))
  | "alpha" => some [('a','z'),('A','Z')]
  | "digit" => some [('0','9')]
  | "alnum" => some [('a','z'),('A','Z'),('0','9')]
  | "lower" => some [('a','z')]
  | "upper" => some [('A','Z')]
  | "space" => some [(' ',' '),('\t','\r')]
  | "blank" => some [(' ',' '),('\t','\t')]
  | "punct" => some [('!','/'),(':','@'),('[','\x60'),('\x7b','~')]
  | "xdigit" => some [('0','9'),('a','f'),('A','F')]
  | "cntrl" => some [('\x00','\x1f'),('\x7f','\x7f')]
  | "graph" => some [('!','~')]
  | "print" => some [(' ','~')]
  | _ => none

def readClass (s : List Letter) : Option (List (Char × Char) × List Letter) :=
  match s with
  | ⟨':',false⟩ :: rest =>
    let name := (rest.takeWhile fun l => l.c.isAlpha).map Letter.c
    match rest.drop name.length with
    | ⟨':',false⟩ :: ⟨']',false⟩ :: rest =>
      (classRanges? (String.ofList name)).map fun ranges => (ranges,rest)
    | _ => none
  | _ => none

/-- Reads the inside of brackets, of which the first letter always counts. -/
def readSet : Nat → Bool → List Letter → Option (List (Char × Char) × List Letter)
  | 0,_,_ => none
  | _,_,[] => none
  | n + 1,first,l :: rest =>
    if !first && l = ⟨']',false⟩ then some ([],rest)
    else
      let add (range : Char × Char) (rest : List Letter) :=
        (readSet n false rest).map fun (ranges,rest) => (range :: ranges,rest)
      match if l = ⟨'[',false⟩ then readClass rest else none with
      | some (named,rest) =>
        (readSet n false rest).map fun (ranges,rest) => (named ++ ranges,rest)
      | none =>
        let (c,rest) := match l,rest with
          | ⟨'\\',false⟩,m :: rest => (m.c,rest)
          | l,rest => (l.c,rest)
        match rest with
        | ⟨'-',false⟩ :: ⟨']',false⟩ :: _ => add (c,c) rest
        | ⟨'-',false⟩ :: ⟨'\\',false⟩ :: m :: rest => add (c,m.c) rest
        | ⟨'-',false⟩ :: m :: rest => add (c,m.c) rest
        | rest => add (c,c) rest

/-- Reads a pattern. Brackets that are not closed stand for themselves. -/
def read : Nat → List Letter → List Glob
  | 0,_ => []
  | _,[] => []
  | n + 1,l :: rest =>
    if l.quoted then letter l.c :: read n rest
    else match l.c,rest with
      | '*',rest => many :: read n rest
      | '?',rest => any :: read n rest
      | '\\',m :: rest => letter m.c :: read n rest
      | '[',rest =>
        let (negated,inside) := match rest with
          | ⟨'!',false⟩ :: inside => (true,inside)
          | inside => (false,inside)
        match readSet (inside.length + 1) true inside with
        | some (ranges,rest) => set negated ranges :: read n rest
        | none => letter '[' :: read n rest
      | c,rest => letter c :: read n rest

def ofLetters (s : List Letter) : List Glob := read (s.length + 1) s

def isWild (s : List Letter) : Bool := s.any fun l => !l.quoted && "*?[".toList.contains l.c

def accepts (g : Glob) (c : Char) : Bool :=
  match g with
  | letter d => c = d
  | any | many => true
  | set negated ranges => (ranges.any fun r => r.1 ≤ c && c ≤ r.2) != negated

def isMatch : List Glob → List Char → Bool
  | [],s => s.isEmpty
  | many :: gs,[] => isMatch gs []
  | many :: gs,c :: s => isMatch gs (c :: s) || isMatch (many :: gs) s
  | _ :: _,[] => false
  | g :: gs,c :: s => g.accepts c && isMatch gs s
termination_by gs s => (gs.length + s.length)

end Glob

def isMatch (pattern : List Letter) (text : String) : Bool :=
  Glob.isMatch (Glob.ofLetters pattern) text.toList

def cutMatch? (front longest : Bool) (globs : List Glob) (text : String) : Option String :=
  let s := text.toList
  let sizes := List.range (s.length + 1)
  let sizes := if longest = front then sizes.reverse else sizes
  let split (n : Nat) := (s.take n,s.drop n)
  let found := sizes.findSome? fun n =>
    let (left,right) := split n
    if front then if Glob.isMatch globs left then some right else none
    else if Glob.isMatch globs right then some left else none
  found.map String.ofList

def cutMatch (front longest : Bool) (pattern : List Letter) (text : String) : String :=
  (cutMatch? front longest (Glob.ofLetters pattern) text).getD text

/-- Cuts a part that matches off several texts that are one behind another. A part at the front is
looked for in the first text, and takes the others along if it is the longest one and all of the
first; a part at the end is looked for in the first text if it is to be the longest, else from the
last text on, and takes along all that is behind it. -/
def cutMatches (front longest : Bool) (pattern : List Letter) (texts : List String) :
    List String :=
  let globs := Glob.ofLetters pattern
  match texts with
  | [] => []
  | first :: rest =>
    if front then
      if longest && Glob.isMatch globs first.toList then [""]
      else (cutMatch? front longest globs first).getD first :: rest
    else if longest then
      match cutMatch? front longest globs first with
      | some left => [left]
      | none => texts
    else
      let found := (List.range texts.length).reverse.findSome? fun n =>
        (cutMatch? front longest globs (texts[n]?.getD "")).map fun left => texts.take n ++ [left]
      found.getD texts

def cutAtSlashes (s : List Letter) : List (List Letter) :=
  s.foldr (fun l parts =>
    if l.c = '/' then [] :: parts
    else match parts with
      | part :: more => (l :: part) :: more
      | [] => [[l]]) [[]]

/-- The names in a directory that match; those that begin with a dot only if the pattern does. -/
def matchingNames (d : Disk) (place : Place) (pattern : List Letter) : List String :=
  let globs := Glob.ofLetters pattern
  let hidden := pattern.head?.any fun l => l.c = '.'
  let names := (d.children place).map (·.1) ++ if hidden then [".",".."] else []
  (names.filter fun name =>
    (hidden || !name.startsWith ".") && Glob.isMatch globs name.toList).mergeSort (· ≤ ·)

def matchingPaths (d : Disk) (base : Place) : String → List (List Letter) → List String
  | found,[] => [found]
  | found,part :: rest =>
    let plain := String.ofList (part.map Letter.c)
    let slash := if rest.isEmpty then "" else "/"
    if Glob.isWild part then
      match d.find base (if found = "" then "." else found) with
      | .ok (place,.directory) =>
        (matchingNames d place part).flatMap fun name =>
          matchingPaths d base (found ++ name ++ slash) rest
      | _ => []
    else if rest.isEmpty then
      if plain = "" || (d.find base (found ++ plain)).isOk then [found ++ plain] else []
    else matchingPaths d base (found ++ plain ++ slash) rest

/-- What a field stands for: the paths that match it, or its letters if none does. -/
def pathsOf (d : Disk) (base : Place) (field : List Letter) : List String :=
  let plain := String.ofList (field.map Letter.c)
  if Glob.isWild field then
    match matchingPaths d base "" (cutAtSlashes field) with
    | [] => [plain]
    | paths => paths
  else [plain]

end Script
end CommandShell
