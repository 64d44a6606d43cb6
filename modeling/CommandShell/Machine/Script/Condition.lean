import CommandShell.Machine.Disk
import CommandShell.Machine.Script.Arithmetic

/-! Conditions on texts, numbers and files, as scripts test them. -/
namespace CommandShell
namespace Script

def fileTests : List String :=
  ["-b","-c","-d","-e","-f","-g","-G","-h","-k","-L","-O","-p","-r","-s","-S","-t",
    "-u","-w","-x"]

def isUnary (op : String) : Bool := op = "-n" || op = "-z" || fileTests.contains op

def isBinary (op : String) : Bool :=
  ["=","!=","<",">","-eq","-ne","-ge","-gt","-le","-lt","-nt","-ot","-ef"].contains op

inductive Part
  | missing
  | operand
  | unary
  | binary
  | not
  | and
  | or
  | opening
  | closing
  deriving DecidableEq

/-- The part at the start of the words: an operator that has no operand counts as one. -/
def partAt : List String → Part
  | [] => .missing
  | word :: rest =>
    if isUnary word then
      match rest with
      | [] => .operand
      | [_] => .unary
      | second :: _ => if isBinary second then .operand else .unary
    else if isBinary word then .binary
    else match word with
      | "!" => .not
      | "-a" => .and
      | "-o" => .or
      | "(" => if rest = [] then .operand else .opening
      | ")" => .closing
      | _ => .operand

structure Sight where
  disk : Disk
  directory : Place

/-- The test of a condition: the words from the one on that was taken last. -/
abbrev Testing := StateT (List String) (Except String)

namespace Testing

def number (text : String) : Testing Int :=
  let s := text.toList.dropWhile (· = ' ')
  let (negative,digits) := match s with
    | '-' :: s => (true,s)
    | '+' :: s => (false,s)
    | s => (false,s)
  let ds := digits.takeWhile Char.isDigit
  let blank (c : Char) : Bool := c = ' ' || ('\t' ≤ c && c ≤ '\r')
  if ds = [] ∨ ((digits.drop ds.length).any fun c => !blank c) then
    throw ("Illegal number: " ++ text)
  else
    let n : Int := ofDigits 10 ds
    return if negative then -n else n

def compare (op : String) (a b : String) : Testing Bool := do
  match op with
  | "=" => return a = b
  | "!=" => return a ≠ b
  | "<" => return a < b
  | ">" => return b < a
  | "-nt" | "-ot" | "-ef" => return false
  | op =>
    let x ← number a
    let y ← number b
    return match op with
      | "-eq" => x = y
      | "-ne" => x ≠ y
      | "-lt" => x < y
      | "-le" => x ≤ y
      | "-gt" => y < x
      | _ => y ≤ x

def fileHolds (s : Sight) (op path : String) : Testing Bool := do
  if op = "-t" then
    let _ ← number path
    return false
  return match op,s.disk.find s.directory path with
    | "-e",.ok _ | "-r",.ok _ | "-w",.ok _ | "-O",.ok _ | "-G",.ok _ => true
    | "-x",.ok (_,item) => item.isExecutable || item.isDirectory
    | "-d",.ok (_,item) => item.isDirectory
    | "-c",.ok (_,.sink) => true
    | "-f",.ok (_,.file _ _) | "-f",.ok (_,.tool _) => true
    | "-s",.ok (_,.file content _) => content ≠ []
    | "-s",.ok (_,.tool _) | "-s",.ok (_,.directory) => true
    | _,_ => false

def take : Testing Unit := modify List.tail

mutual

def disjunction (s : Sight) : Nat → Part → Testing Bool
  | 0,_ => return false
  | n + 1,p => do
    let a ← conjunction s n p
    unless partAt (← get).tail = .or do return a
    take
    take
    let b ← disjunction s n (partAt (← get))
    return a || b

def conjunction (s : Sight) : Nat → Part → Testing Bool
  | 0,_ => return false
  | n + 1,p => do
    let a ← negation s n p
    unless partAt (← get).tail = .and do return a
    take
    take
    let b ← conjunction s n (partAt (← get))
    return a && b

def negation (s : Sight) : Nat → Part → Testing Bool
  | 0,_ => return false
  | n + 1,.not => do
    let p := partAt (← get).tail
    if p ≠ .missing then take
    return !(← negation s n p)
  | n + 1,p => primary s n p

def primary (s : Sight) : Nat → Part → Testing Bool
  | 0,_ => return false
  | _ + 1,.missing => return false
  | n + 1,.opening => do
    take
    let p := partAt (← get)
    if p = .closing then return false
    let a ← disjunction s n p
    take
    if partAt (← get) ≠ .closing then throw "closing paren expected"
    return a
  | _ + 1,.unary => do
    let op := (← get).headD ""
    take
    match (← get).head? with
    | none => throw (op ++ ": argument expected")
    | some text =>
      return ← match op with
        | "-n" => return text ≠ ""
        | "-z" => return text = ""
        | op => fileHolds s op text
  | _ + 1,_ => do
    match ← get with
    | a :: op :: rest =>
      if partAt (op :: rest) = .binary then
        match rest with
        | [] => throw (op ++ ": argument expected")
        | b :: _ => do
          take
          take
          compare op a b
      else return a ≠ ""
    | [a] => return a ≠ ""
    | [] => return false

end

def whole (s : Sight) (n : Nat) (p : Part) : Testing Bool := do
  let a ← disjunction s n p
  match ← get with
  | word :: _ :: _ => throw ((if word = "" then "" else word ++ ": ") ++ "unexpected operator")
  | _ => return a

end Testing

def holds (s : Sight) : Nat → List String → Except String Bool
  | 0,_ => .ok false
  | _,[] => .ok false
  | n + 1,words =>
    let test (p : Part) (words : List String) :=
      ((Testing.whole s (4 * words.length + 8) p).run words).map (·.1)
    match words with
    | [_,op,_] =>
      if isBinary op then test .operand words else bracketed n words test
    | [_,_,_,_] => bracketed n words test
    | words => test (partAt words) words
where
  /-- Three or four words between brackets or behind a negation. -/
  bracketed (n : Nat) (words : List String)
      (test : Part → List String → Except String Bool) : Except String Bool :=
    if words.head? = some "(" ∧ words.getLast? = some ")" then
      let inner := words.tail.dropLast
      test (partAt inner) inner
    else if words.head? = some "!" then (holds s n words.tail).map (!·)
    else test (partAt words) words

end Script
end CommandShell
