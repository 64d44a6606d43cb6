import CommandShell.Machine.Script.Arithmetic

/-! Texts with escapes and formats, as scripts print them. -/
namespace CommandShell
namespace Script

def isOctal (c : Char) : Bool := '0' ≤ c && c ≤ '7'

def control? : Char → Option Char
  | '\\' => some '\\'
  | 'a' => some '\x07'
  | 'b' => some '\x08'
  | 'e' => some '\x1b'
  | 'f' => some '\x0c'
  | 'n' => some '\n'
  | 'r' => some '\r'
  | 't' => some '\t'
  | 'v' => some '\x0b'
  | _ => none

/-- The letter that the text behind a backslash stands for, and what follows; a backslash if none
does. -/
def escape (s : List Char) : Char × List Char :=
  match s with
  | [] => ('\\',[])
  | c :: rest =>
    if isOctal c then
      let digits := (s.take 3).takeWhile isOctal
      (Char.ofNat (ofDigits 8 digits % 256),s.drop digits.length)
    else match control? c with
      | some d => (d,rest)
      | none => ('\\',s)

/-- Text with escapes; the flag says that nothing more is to be printed. Octal numbers may begin
with a further zero. -/
def unescape : Nat → List Char → List Char × Bool
  | 0,_ => ([],false)
  | _,[] => ([],false)
  | n + 1,'\\' :: rest =>
    if rest.head? = some 'c' then ([],true)
    else
      let s := match rest with
        | '0' :: c :: more => if isOctal c then c :: more else rest
        | rest => rest
      let (c,rest) := escape s
      let (text,stop) := unescape n rest
      (c :: text,stop)
  | n + 1,c :: rest =>
    let (text,stop) := unescape n rest
    (c :: text,stop)

def unescaped (s : String) : String × Bool :=
  let (text,stop) := unescape (s.length + 1) s.toList
  (String.ofList text,stop)

def joined (ending : String) : List String → String
  | [] => ending
  | arg :: rest =>
    let (text,stop) := unescaped arg
    if stop then text
    else text ++ if rest.isEmpty then ending else " " ++ joined ending rest

def echoed : List String → String
  | "-n" :: args => joined "" args
  | args => joined "\n" args

structure Layout where
  flags : List Char
  width : Nat
  precision : Option Nat
  deriving DecidableEq

namespace Layout

def has (l : Layout) (c : Char) : Bool := l.flags.contains c

def pad (l : Layout) (s : List Char) : List Char :=
  let fill := List.replicate (l.width - s.length) ' '
  if l.has '-' then s ++ fill else fill ++ s

def text (l : Layout) (s : List Char) : List Char :=
  l.pad (match l.precision with
    | some n => s.take n
    | none => s)

def number (l : Layout) (sign digits : List Char) (zeros : Bool) : List Char :=
  if zeros && l.has '0' && !l.has '-' then
    sign ++ List.replicate (l.width - sign.length - digits.length) '0' ++ digits
  else l.pad (sign ++ digits)

def sign (l : Layout) (negative : Bool) : List Char :=
  if negative then ['-'] else if l.has '+' then ['+'] else if l.has ' ' then [' '] else []

def digits (l : Layout) (base : Nat) (n : Nat) : List Char :=
  let ds := if n = 0 ∧ l.precision = some 0 then [] else Nat.toDigits base n
  List.replicate (l.precision.getD 0 - ds.length) '0' ++ ds

def decimal (l : Layout) (n : Int) : List Char :=
  l.number (l.sign (n < 0)) (l.digits 10 n.natAbs) l.precision.isNone

def hexadecimal (l : Layout) (n : Nat) : List Char :=
  l.number (if l.has '#' && n ≠ 0 then ['0','x'] else []) (l.digits 16 n) l.precision.isNone

def octal (l : Layout) (n : Nat) : List Char :=
  let ds := l.digits 8 n
  l.number [] (if l.has '#' && ds.head? ≠ some '0' then '0' :: ds else ds) l.precision.isNone

end Layout

/-- A number as it is kept: a whole number of at most 53 bits times a power of two. -/
structure Real where
  negative : Bool
  fraction : Nat
  exponent : Int
  deriving DecidableEq

/-- What a text may be read as where a number is wanted. -/
inductive Amount
  | number (r : Real)
  /-- More than can be kept. -/
  | infinite (negative : Bool)
  | undefined (negative : Bool)
  deriving DecidableEq

namespace Real

/-- A quotient rounded to the nearest whole number, to an even one between two. -/
def rounded (a b : Nat) : Nat :=
  let q := a / b
  let twice := 2 * (a % b)
  if b < twice ∨ twice = b ∧ q % 2 = 1 then q + 1 else q

def ofQuotient (negative : Bool) (a b : Nat) : Amount × Bool :=
  if a = 0 then (.number ⟨negative,0,0⟩,true)
  else
    let guess : Int := (a.log2 : Int) - b.log2 - 53
    let scaled (e : Int) := (a <<< (-e).toNat,b <<< e.toNat)
    let (x,y) := scaled guess
    let e := max (-1074) (if 1 <<< 53 ≤ x / y then guess + 1 else guess)
    let (x,y) := scaled e
    let n := rounded x y
    if 971 < e ∨ e = 971 ∧ n = 1 <<< 53 then (.infinite negative,false)
    else (.number ⟨negative,n,e⟩,x % y = 0 || 1 <<< 52 ≤ n)

/-- The number that is `n` times a power of `base`. Where `n` has so many digits that the number
cannot be in range, it is not worked out. -/
def ofPower (negative : Bool) (n base digits : Nat) (power : Int) : Amount × Bool :=
  if n = 0 then ofQuotient negative 0 1
  else if 1100 < digits + power then (.infinite negative,false)
  else if digits + power < -1200 then (.number ⟨negative,0,0⟩,false)
  else ofQuotient negative (n * base.pow power.toNat) (base.pow (-power).toNat)

def readPlaces (isDigit : Char → Bool) (s : List Char) : List Char × List Char × List Char :=
  let whole := s.takeWhile isDigit
  match s.drop whole.length with
  | '.' :: more =>
    let part := more.takeWhile isDigit
    if whole = [] ∧ part = [] then ([],[],s) else (whole,part,more.drop part.length)
  | rest => (whole,[],rest)

def readPower (mark : Char) (s : List Char) : Int × List Char :=
  match s with
  | c :: more =>
    let (down,digits) := match more with
      | '-' :: ds => (true,ds)
      | '+' :: ds => (false,ds)
      | ds => (false,ds)
    let power := digits.takeWhile Char.isDigit
    if c.toLower ≠ mark ∨ power = [] then (0,s)
    else
      let n : Int := ofDigits 10 power
      (if down then -n else n,digits.drop power.length)
  | [] => (0,[])

def read (s : List Char) : Option (Amount × Bool × List Char) :=
  let (negative,s) := match s with
    | '-' :: s => (true,s)
    | '+' :: s => (false,s)
    | s => (false,s)
  let begins (word : String) : Bool := (s.take word.length).map Char.toLower = word.toList
  let isHexadecimal (c : Char) : Bool := digitValue c < 16
  let places := readPlaces isHexadecimal (s.drop 2)
  if begins "infinity" then some (.infinite negative,true,s.drop 8)
  else if begins "inf" then some (.infinite negative,true,s.drop 3)
  else if begins "nan" then some (.undefined negative,true,s.drop 3)
  else if begins "0x" ∧ places.1 ++ places.2.1 ≠ [] then
    let (whole,part,rest) := places
    let (power,rest) := readPower 'p' rest
    let n := ofDigits 16 (whole ++ part)
    let (a,inRange) := ofPower negative n 2 (n.log2 + 1) (power - 4 * part.length)
    some (a,inRange,rest)
  else
    let (whole,part,rest) := readPlaces Char.isDigit s
    let digits := (whole ++ part).dropWhile (· = '0')
    if whole = [] ∧ part = [] then none
    else
      let (power,rest) := readPower 'e' rest
      let (a,inRange) :=
        ofPower negative (ofDigits 10 digits) 10 digits.length (power - part.length)
      some (a,inRange,rest)

def scaled (r : Real) (power : Int) : Nat :=
  rounded ((r.fraction <<< r.exponent.toNat) * Nat.pow 10 power.toNat)
    (Nat.pow 10 (-power).toNat <<< (-r.exponent).toNat)

def pointed (n places : Nat) (point : Bool) : List Char :=
  let ds := Nat.toDigits 10 n
  let ds := List.replicate (places + 1 - ds.length) '0' ++ ds
  let size := ds.length - places
  ds.take size ++ if places = 0 && !point then [] else '.' :: ds.drop size

def magnitude (r : Real) (places : Nat) : Int :=
  if r.fraction = 0 then 0
  else
    let digits (n : Nat) : Int := (Nat.toDigits 10 n).length
    let guess : Int :=
      if 0 ≤ r.exponent then digits (r.fraction <<< r.exponent.toNat) - 1
      else
        let bits := (-r.exponent).toNat
        digits ((r.fraction * Nat.pow 10 bits) >>> bits) - 1 - bits
    if Nat.pow 10 (places + 1) ≤ r.scaled (places - guess) then guess + 1 else guess

def fixed (r : Real) (places : Nat) (point : Bool) : List Char :=
  pointed (r.scaled places) places point

def scientific (r : Real) (places : Nat) (point : Bool) : List Char :=
  let power := r.magnitude places
  let ds := Nat.toDigits 10 power.natAbs
  pointed (r.scaled (places - power)) places point ++ ['e',if power < 0 then '-' else '+']
    ++ List.replicate (2 - ds.length) '0' ++ ds

def withoutZeros (s : List Char) : List Char :=
  if s.contains '.' then
    let s := (s.reverse.dropWhile (· = '0')).reverse
    if s.getLast? = some '.' then s.dropLast else s
  else s

/-- The number with hexadecimal digits and a power of two; as many digits as are needed if no
precision is given. -/
def hexadecimal (r : Real) (precision : Option Nat) (point : Bool) : List Char :=
  let (n,power) : Nat × Int :=
    if r.fraction = 0 then (0,0)
    else if 1 <<< 53 ≤ r.fraction then (r.fraction / 2,r.exponent + 53)
    else (r.fraction,r.exponent + 52)
  let size := min 13 (precision.getD 13)
  let n := rounded n (Nat.pow 16 (13 - size))
  let unit := Nat.pow 16 size
  let digits := Nat.toDigits 16 (n % unit + unit) |>.tail
  let digits := match precision with
    | none => (digits.reverse.dropWhile (· = '0')).reverse
    | some k => digits ++ List.replicate (k - size) '0'
  Nat.toDigits 16 (n / unit) ++ (if digits = [] ∧ ¬point then [] else '.' :: digits)
    ++ ['p',if power < 0 then '-' else '+'] ++ Nat.toDigits 10 power.natAbs

def general (r : Real) (precision : Nat) (point : Bool) : List Char :=
  let places := precision - 1
  let power := r.magnitude places
  let trim (s : List Char) := if point then s else withoutZeros s
  if power < -4 ∨ (places : Int) < power then
    let s := r.scientific places point
    trim (s.takeWhile (· ≠ 'e')) ++ s.dropWhile (· ≠ 'e')
  else trim (r.fixed ((places : Int) - power).toNat point)

end Real

structure Printed where
  text : List Char
  /-- Complaints about arguments. -/
  warnings : List String
  /-- Why the format cannot be used. -/
  fault : Option String
  /-- Nothing more is to be printed. -/
  stopped : Bool
  args : List String

def converted {α : Type} (arg : String) (value : α) (rest : List Char) (inRange : Bool) :
    α × List String :=
  if rest = [] then (value,if inRange then [] else [arg ++ ": Numerical result out of range"])
  else if rest.length = arg.length then (value,[arg ++ ": expected numeric value"])
  else (value,[arg ++ ": not completely converted"])

def wholeArgument (signed : Bool) (arg : String) : Int × List String :=
  match arg.toList with
  | '"' :: rest | '\'' :: rest => (((rest.headD '\x00').toNat : Int),[])
  | s =>
    let trimmed := s.dropWhile fun c => c = ' ' || ('\t' ≤ c && c ≤ '\r')
    let (negative,digits) := match trimmed with
      | '-' :: s => (true,s)
      | '+' :: s => (false,s)
      | s => (false,s)
    if digits.head?.any Char.isDigit then
      let (n,rest) := readNumber digits
      let n : Int := if negative then -n else n
      if signed then converted arg (clamp n).toInt rest ((clamp n).toInt = n)
      else
        let fits := n.natAbs < UInt64.size
        converted arg (if fits then n % UInt64.size else UInt64.size - 1) rest fits
    else converted arg 0 s true

def realArgument (arg : String) : Amount × List String :=
  match arg.toList with
  | '"' :: rest | '\'' :: rest => ((Real.ofQuotient false (rest.headD '\x00').toNat 1).1,[])
  | s =>
    match Real.read (s.dropWhile fun c => c = ' ' || ('\t' ≤ c && c ≤ '\r')) with
    | some (a,inRange,rest) => converted arg a rest inRange
    | none => converted arg (.number ⟨false,0,0⟩) s true

def convert (l : Layout) (letter : Char) (arg : String) : Option (List Char × List String) :=
  let whole (signed : Bool) (shown : Int → List Char) :=
    let (n,warnings) := wholeArgument signed arg
    some (shown n,warnings)
  let real (start : List Char) (shown : Real → List Char) :=
    let (a,warnings) := realArgument arg
    let text := match a with
      | .number r => l.number (l.sign r.negative ++ start) (shown r) true
      | .infinite negative => l.pad (l.sign negative ++ "inf".toList)
      | .undefined negative => l.pad (l.sign negative ++ "nan".toList)
    some (if letter.isUpper then text.map Char.toUpper else text,warnings)
  let places := l.precision.getD 6
  match letter with
  | 's' => some (l.text arg.toList,[])
  | 'c' => some (l.pad [arg.toList.headD '\x00'],[])
  | 'd' | 'i' => whole true l.decimal
  | 'u' => whole false { l with flags := l.flags.filter fun c => c ≠ '+' ∧ c ≠ ' ' }.decimal
  | 'x' => whole false fun n => l.hexadecimal n.toNat
  | 'X' => whole false fun n => (l.hexadecimal n.toNat).map Char.toUpper
  | 'o' => whole false fun n => l.octal n.toNat
  | 'f' | 'F' => real [] fun r => r.fixed places (l.has '#')
  | 'e' | 'E' => real [] fun r => r.scientific places (l.has '#')
  | 'g' | 'G' => real [] fun r => r.general (max 1 places) (l.has '#')
  | 'a' | 'A' => real ['0','x'] fun r => r.hexadecimal l.precision (l.has '#')
  | _ => none

def ofBits (n : Int) : Int := n.bmod UInt32.size

structure Size where
  size : Int
  rest : List Char
  args : List String
  warnings : List String

def readSize (s : List Char) (args : List String) : Size :=
  match s with
  | '*' :: s =>
    let (n,warnings) := wholeArgument true (args.headD "")
    ⟨ofBits n,s,args.tail,warnings⟩
  | s =>
    let ds := s.takeWhile Char.isDigit
    ⟨ofDigits 10 ds,s.drop ds.length,args,[]⟩

/-- Reads what stands between a percent sign and its letter: the layout, what follows it, the
arguments that are left, and complaints. A width below zero asks for the left side, and a precision
below zero for none. -/
def readLayout (s : List Char) (args : List String) :
    Layout × List Char × List String × List String :=
  let flags := s.takeWhile "#-+ 0".toList.contains
  let width := readSize (s.drop flags.length) args
  let flags := if width.size < 0 then '-' :: flags else flags
  match width.rest with
  | '.' :: s =>
    let p := readSize s width.args
    let precision := if p.size < 0 then none else some p.size.toNat
    (⟨flags,width.size.natAbs,precision⟩,p.rest,p.args,width.warnings ++ p.warnings)
  | s => (⟨flags,width.size.natAbs,none⟩,s,width.args,width.warnings)

def format : Nat → List Char → List String → Printed
  | 0,_,args => ⟨[],[],none,false,args⟩
  | _,[],args => ⟨[],[],none,false,args⟩
  | n + 1,'\\' :: rest,args =>
    let (c,rest) := escape rest
    let p := format n rest args
    { p with text := c :: p.text }
  | n + 1,'%' :: '%' :: rest,args =>
    let p := format n rest args
    { p with text := '%' :: p.text }
  | n + 1,'%' :: rest,args =>
    let (layout,after,args,before) := readLayout rest args
    match after with
    | [] => ⟨[],before,some "missing format character",true,args⟩
    | 'b' :: more =>
      let (text,stop) := unescaped (args.headD "")
      let shown := layout.text text.toList
      if stop then ⟨shown,before,none,true,args.tail⟩
      else
        let p := format n more args.tail
        { p with text := shown ++ p.text, warnings := before ++ p.warnings }
    | letter :: more =>
      let shown := match args with
        | [] => if "cs".toList.contains letter then "" else "0"
        | arg :: _ => arg
      match convert layout letter shown with
      | some (text,warnings) =>
        let p := format n more args.tail
        { p with text := text ++ p.text, warnings := before ++ warnings ++ p.warnings }
      | none =>
        let directive := '%' :: rest.take (rest.length - more.length)
        ⟨[],before,some (String.ofList directive ++ ": invalid directive"),true,args⟩
  | n + 1,c :: rest,args =>
    let p := format n rest args
    { p with text := c :: p.text }

/-- Uses a format again as long as arguments are left that it takes. -/
def printed (text : List Char) : Nat → List String → Printed
  | 0,args => ⟨[],[],none,true,args⟩
  | n + 1,args =>
    let p := format (text.length + 1) text args
    if p.stopped || p.args.isEmpty || p.args.length = args.length then p
    else
      let more := printed text n p.args
      { more with text := p.text ++ more.text, warnings := p.warnings ++ more.warnings }

end Script
end CommandShell
