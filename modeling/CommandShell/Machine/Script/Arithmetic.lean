import CommandShell.Machine.Script.Syntax

/-! Sums: expressions on integers of 64 bits, with variables that can be set. -/
namespace CommandShell
namespace Script

inductive Operator
  | times
  | divide
  | rest
  | plus
  | minus
  | shiftLeft
  | shiftRight
  | less
  | atMost
  | greater
  | atLeast
  | equal
  | unequal
  | bitAnd
  | bitXor
  | bitOr
  deriving DecidableEq

namespace Operator

/-- A smaller number binds more tightly. -/
def level : Operator → Nat
  | times | divide | rest => 0
  | plus | minus => 1
  | shiftLeft | shiftRight => 2
  | less | atMost | greater | atLeast => 3
  | equal | unequal => 4
  | bitAnd => 5
  | bitXor => 6
  | bitOr => 7

end Operator

def topLevel : Nat := 8

inductive SumToken
  | number (n : Int64)
  | name (text : String)
  | operator (o : Operator)
  /-- Sets a variable, to the result of an operator if there is one. -/
  | assign (o : Option Operator)
  | both
  | either
  | opposite
  | complement
  | question
  | colon
  | opening
  | closing
  | finish
  | unknown
  deriving DecidableEq

/-- Spellings of tokens, longer ones before shorter ones that they begin with. -/
def sumTokens : List (String × SumToken) :=
  [("<<=",.assign (some .shiftLeft)),(">>=",.assign (some .shiftRight)),("&&",.both),
    ("||",.either),("<<",.operator .shiftLeft),(">>",.operator .shiftRight),
    ("<=",.operator .atMost),(">=",.operator .atLeast),("==",.operator .equal),
    ("!=",.operator .unequal),("*=",.assign (some .times)),("/=",.assign (some .divide)),
    ("%=",.assign (some .rest)),("+=",.assign (some .plus)),("-=",.assign (some .minus)),
    ("&=",.assign (some .bitAnd)),("^=",.assign (some .bitXor)),("|=",.assign (some .bitOr)),
    ("*",.operator .times),("/",.operator .divide),("%",.operator .rest),
    ("+",.operator .plus),("-",.operator .minus),("<",.operator .less),
    (">",.operator .greater),("&",.operator .bitAnd),("^",.operator .bitXor),
    ("|",.operator .bitOr),("=",.assign none),("!",.opposite),("~",.complement),
    ("?",.question),(":",.colon),("(",.opening),(")",.closing)]

def digitValue (c : Char) : Nat :=
  if c.isDigit then c.toNat - '0'.toNat
  else if c.isLower then c.toNat - 'a'.toNat + 10
  else if c.isUpper then c.toNat - 'A'.toNat + 10
  else 36

def ofDigits (base : Nat) (digits : List Char) : Nat :=
  digits.foldl (fun n c => n * base + digitValue c) 0

/-- The number at the start of a text, in the base that its first letters tell, and what follows
it. -/
def readNumber (s : List Char) : Nat × List Char :=
  let digits (base : Nat) (s : List Char) :=
    let ds := s.takeWhile fun c => digitValue c < base
    (ofDigits base ds,s.drop ds.length)
  match s with
  | '0' :: 'x' :: c :: rest | '0' :: 'X' :: c :: rest =>
    if digitValue c < 16 then digits 16 (c :: rest) else (0,s.drop 1)
  | '0' :: rest => digits 8 ('0' :: rest)
  | s => digits 10 s

/-- A number that is too large or too small becomes the nearest one. -/
def clamp (n : Int) : Int64 :=
  Int64.ofInt (max Int64.minValue.toInt (min n Int64.maxValue.toInt))

def readSum : Nat → List Char → List SumToken
  | 0,_ => []
  | _,[] => []
  | n + 1,c :: rest =>
    if c = ' ' ∨ c = '\t' ∨ c = '\n' then readSum n rest
    else if c.isDigit then
      let (value,rest) := readNumber (c :: rest)
      .number (clamp value) :: readSum n rest
    else if isNameStart c then
      let name := (c :: rest).takeWhile isNameChar
      .name (String.ofList name) :: readSum n ((c :: rest).drop name.length)
    else match sumTokens.find? fun t => t.1.toList.isPrefixOf (c :: rest) with
      | some (text,t) => t :: readSum n ((c :: rest).drop text.length)
      | none => .unknown :: readSum n rest

inductive SumFault
  | expression (text : String)
  | notNumber (text : String)
  deriving DecidableEq

structure Sum where
  tokens : List SumToken
  vars : String → Option String
  /-- Variables that were set, the last one first. -/
  changes : List (String × Int64)

abbrev Summing := StateT Sum (Except SumFault)

namespace Summing

variable {α : Type}

def fault (text : String) : Summing α := throw (.expression text)

def peek : Summing SumToken := do return (← get).tokens.headD .finish

def next : Summing SumToken := do
  let t ← peek
  modify fun s => { s with tokens := s.tokens.tail }
  return t

/-- The number in a text that holds nothing else, where an empty one is zero. -/
def numberOf? (text : String) : Option Int64 :=
  let s := text.toList.dropWhile fun c => c = ' ' || ('\t' ≤ c && c ≤ '\r')
  let (negative,digits) := match s with
    | '-' :: s => (true,s)
    | '+' :: s => (false,s)
    | s => (false,s)
  let (value,rest) := if digits.head?.any Char.isDigit then readNumber digits else (0,s)
  if rest.all fun c => c = ' ' || ('\t' ≤ c && c ≤ '\r') then
    some (clamp (if negative then -(value : Int) else value))
  else none

/-- The value of a variable; a missing one is zero. -/
def lookup (name : String) : Summing Int64 := do
  let s ← get
  match s.changes.find? (·.1 = name) with
  | some (_,value) => return value
  | none =>
    let text := (s.vars name).getD ""
    match numberOf? text with
    | some n => return n
    | none => throw (.notNumber text)

def ofBool (b : Bool) : Int64 := if b then 1 else 0

def apply (o : Operator) (a b : Int64) : Summing Int64 :=
  match o with
  | .times => return a * b
  | .divide => if b = 0 then fault "division by zero" else return a / b
  | .rest => if b = 0 then fault "division by zero" else return a % b
  | .plus => return a + b
  | .minus => return a - b
  | .shiftLeft => return a <<< b
  | .shiftRight => return a >>> b
  | .less => return ofBool (a < b)
  | .atMost => return ofBool (a ≤ b)
  | .greater => return ofBool (b < a)
  | .atLeast => return ofBool (b ≤ a)
  | .equal => return ofBool (a = b)
  | .unequal => return ofBool (a ≠ b)
  | .bitAnd => return a &&& b
  | .bitXor => return a ^^^ b
  | .bitOr => return a ||| b

mutual

/-- An assignment or what binds more tightly. Where `idle` holds nothing is set or looked up. -/
def assignment : Nat → Bool → Summing Int64
  | 0,_ => fault "expecting primary"
  | n + 1,idle => do
    match (← get).tokens with
    | .name text :: .assign o :: rest => do
      modify fun s => { s with tokens := rest }
      let b ← assignment n idle
      if idle then return b
      let value ← match o with
        | none => pure b
        | some o => do
          let a ← lookup text
          apply o a b
      modify fun s => { s with changes := (text,value) :: s.changes }
      return value
    | _ => conditional n idle

def conditional : Nat → Bool → Summing Int64
  | 0,_ => fault "expecting primary"
  | n + 1,idle => do
    let a ← disjunction n idle
    unless (← peek) = .question do return a
    let _ ← next
    let b ← assignment n (idle || a = 0)
    unless (← next) = .colon do fault "expecting ':'"
    let c ← conditional n (idle || a ≠ 0)
    return if a ≠ 0 then b else c

def disjunction : Nat → Bool → Summing Int64
  | 0,_ => fault "expecting primary"
  | n + 1,idle => do
    let a ← conjunction n idle
    unless (← peek) = .either do return a
    let _ ← next
    let b ← disjunction n (idle || a ≠ 0)
    return ofBool (a ≠ 0 || b ≠ 0)

def conjunction : Nat → Bool → Summing Int64
  | 0,_ => fault "expecting primary"
  | n + 1,idle => do
    let a ← primary n idle
    let a ← operations n idle topLevel a
    unless (← peek) = .both do return a
    let _ ← next
    let b ← conjunction n (idle || a = 0)
    return ofBool (a ≠ 0 && b ≠ 0)

def operations : Nat → Bool → Nat → Int64 → Summing Int64
  | 0,_,_,_ => fault "expecting primary"
  | n + 1,idle,level,a => do
    match ← peek with
    | .operator o =>
      if level ≤ o.level then return a
      let _ ← next
      let b ← primary n idle
      let b ← operations n idle o.level b
      let a ← if idle then pure b else apply o a b
      operations n idle level a
    | _ => return a

def primary : Nat → Bool → Summing Int64
  | 0,_ => fault "expecting primary"
  | n + 1,idle => do
    match ← next with
    | .opening => do
      let a ← assignment n idle
      unless (← next) = .closing do fault "expecting ')'"
      return a
    | .number a => return a
    | .name text => if idle then return 0 else lookup text
    | .operator .plus => primary n idle
    | .operator .minus => return -(← primary n idle)
    | .opposite => return ofBool ((← primary n idle) = 0)
    | .complement => return ~~~(← primary n idle)
    | _ => fault "expecting primary"

end

def whole (n : Nat) : Summing Int64 := do
  let a ← assignment n false
  unless (← peek) = .finish do fault "expecting EOF"
  return a

end Summing

/-- The value of an expression, and the variables it sets, the last one first. -/
def sum (vars : String → Option String) (text : String) :
    Except SumFault (Int64 × List (String × Int64)) :=
  let tokens := readSum (text.length + 1) text.toList
  ((Summing.whole (8 * (tokens.length + 2))).run ⟨tokens,vars,[]⟩).map fun (a,s) =>
    (a,s.changes)

end Script
end CommandShell
