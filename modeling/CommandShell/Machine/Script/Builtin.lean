import CommandShell.Machine.Script.Condition
import CommandShell.Machine.Script.Expansion
import CommandShell.Machine.Script.Format
import CommandShell.Machine.Script.Reader
import CommandShell.Machine.Script.Signal

/-! The commands that are part of the language of scripts. Each gives its status. -/
namespace CommandShell
namespace Script

def regularBuiltins : List String :=
  ["[","alias","cd","chdir","command","echo","false","getopts","hash","jobs","kill",
    "printf","pwd","read","test","true","type","ulimit","umask","unalias","wait"]

def isBuiltin (name : String) : Bool :=
  specialBuiltins.contains name || regularBuiltins.contains name

def optionNames : List (String × Option Char) :=
  [("errexit",some 'e'),("noglob",some 'f'),("ignoreeof",some 'I'),("interactive",some 'i'),
    ("monitor",some 'm'),("noexec",some 'n'),("stdin",some 's'),("xtrace",some 'x'),
    ("verbose",some 'v'),("vi",some 'V'),("emacs",some 'E'),("noclobber",some 'C'),
    ("allexport",some 'a'),("notify",some 'b'),("nounset",some 'u'),("privileged",some 'p'),
    ("nolog",none),("debug",none)]

/-- A text between quotes, so that it can be read again; single quotes in it come between double
ones. -/
def quotedText (text : String) : String :=
  let rec go : Nat → List Char → List Char
    | 0,_ => []
    | n + 1,s =>
      let part := s.takeWhile (· ≠ '\'')
      let rest := s.drop part.length
      let quotes := rest.takeWhile (· = '\'')
      let rest := rest.drop quotes.length
      let shown := '\'' :: part ++ ['\'']
      if quotes = [] then shown
      else shown ++ '"' :: quotes ++ '"' :: if rest = [] then [] else go n rest
  String.ofList (go (text.length + 1) text.toList)

namespace Run

def options (known : String) : Nat → List String → Run (List (Char × String) × List String)
  | 0,args => return ([],args)
  | _,[] => return ([],[])
  | n + 1,arg :: rest => do
    match arg.toList with
    | ['-','-'] => return ([],rest)
    | '-' :: c :: letters =>
      let behind := (known.toList.dropWhile (· ≠ c)).take 2
      if c = ':' || behind.isEmpty then fail ("Illegal option -" ++ String.singleton c)
      if behind = [c,':'] then
        if letters ≠ [] then
          let (found,args) ← options known n rest
          return ((c,String.ofList letters) :: found,args)
        match rest with
        | [] => fail ("No arg for -" ++ String.singleton c ++ " option")
        | value :: rest =>
          let (found,args) ← options known n rest
          return ((c,value) :: found,args)
      let again := if letters = [] then rest else String.ofList ('-' :: letters) :: rest
      let (found,args) ← options known n again
      return ((c,"") :: found,args)
    | _ => return ([],arg :: rest)

def optionsOf (known : String) (args : List String) : Run (List (Char × String) × List String) :=
  options known (args.foldl (fun n a => n + (a.length + 1)) 1) args

def number (text : String) : Run Nat :=
  match if text.toList.all Char.isDigit then text.toNat? else none with
  | some n => return n
  | none => fail ("Illegal number: " ++ text)

def setOption (c : Char) (on : Bool) : Run Unit := do
  unless optionNames.any fun o => o.2 = some c do
    fail ("Illegal option -" ++ String.singleton c)
  modify fun p =>
    let others := p.options.filter (· ≠ c)
    { p with options := if on then c :: others else others }

def setNamedOption (name? : Option String) (on : Bool) : Run Unit := do
  let chosen := (← get).options
  let isSet (letter : Option Char) : Bool := letter.any chosen.contains
  match name? with
  | none =>
    if on then
      print "Current option settings\n"
      for (name,letter) in optionNames do
        let fill := String.ofList (List.replicate (16 - name.length) ' ')
        print (name ++ fill ++ (if isSet letter then "on" else "off") ++ "\n")
    else
      for (name,letter) in optionNames do
        print ("set " ++ (if isSet letter then "-o " else "+o ") ++ name ++ "\n")
  | some name =>
    match optionNames.find? (·.1 = name) with
    | some (_,some c) => setOption c on
    | some (_,none) => return ()
    | none => fail ("Illegal option -o " ++ name)

/-- Takes the options at the start of arguments, and gives the others; the flag says whether they
are given as new arguments. -/
def takeOptions : Nat → List String → Run (List String × Bool)
  | 0,args => return (args,true)
  | _,[] => return ([],false)
  | n + 1,arg :: rest => do
    match arg.toList with
    | ['-'] => do
      modify fun p => { p with options := p.options.filter fun c => c ≠ 'x' ∧ c ≠ 'v' }
      return (rest,!rest.isEmpty)
    | ['-','-'] => return (rest,true)
    | sign :: letters =>
      if sign ≠ '-' ∧ sign ≠ '+' then return (arg :: rest,true)
      let on := sign = '-'
      let mut rest := rest
      for c in letters do
        if c = 'o' then
          setNamedOption rest.head? on
          rest := rest.tail
        else setOption c on
      takeOptions n rest
    | [] => return (arg :: rest,true)

def listVariables (start : String) (p : Variable → Bool) : Run Nat := do
  for (name,v) in (← get).vars.toList do
    if p v then
      match v.value with
      | some value => print (start ++ name ++ "=" ++ quotedText value ++ "\n")
      | none => unless start = "" do print (start ++ name ++ "\n")
  return 0

def declare (word : String) (mark : Variable → Variable) (isMarked : Variable → Bool)
    (args : List String) : Run Nat := do
  let (found,args) ← optionsOf "p" args
  if found ≠ [] ∨ args = [] then
    listVariables (word ++ " ") isMarked
  else do
    for arg in args do
      let (name,value?) := splitBinding arg
      unless isName name do fail (name ++ ": bad variable name")
      if let some value := value? then assign name value
      modify fun p =>
        let v := p.vars[name]?.getD ⟨none,false,false⟩
        { p with vars := p.vars.insert name (mark v) }
    return 0

def removeVariable (name : String) : Run Unit := do
  unless isName name do fail (name ++ ": bad variable name")
  if ((← get).vars[name]?).any Variable.fixed then fail (name ++ ": is read only")
  modify fun p => { p with vars := p.vars.erase name }

def unset (args : List String) : Run Nat := do
  let (found,args) ← optionsOf "vf" args
  for name in args do
    if found.getLast?.any (·.1 = 'f') then
      modify fun p => { p with functions := p.functions.erase name }
    else removeVariable name
  return 0

def localize (args : List String) : Run Nat := do
  if (← get).calls = 0 then fail "not in a function"
  for arg in args do
    let (name,value?) := splitBinding arg
    unless isName name do fail (name ++ ": bad variable name")
    hide name
    if let some value := value? then assign name value
  return 0

def shift (args : List String) : Run Nat := do
  let n ← match args with
    | [] => pure 1
    | text :: _ => number text
  let p ← get
  if p.args.length < n then fail "can't shift that many"
  set { p with args := p.args.drop n }
  return 0

/-- The commands that end loops: how many of them, at most as many as run. -/
def loopCount (args : List String) : Run Nat := do
  let n ← match args with
    | [] => pure 1
    | text :: _ => number text
  if n = 0 then fail ("Illegal number: " ++ args.headD "")
  return min n (← get).loops

def takesValue? (c : Char) : List Char → Option Bool
  | [] => none
  | d :: rest =>
    if d = c then some (rest.head? = some ':')
    else match rest with
      | ':' :: rest => takesValue? c rest
      | rest => takesValue? c rest

def nextOption (known target : String) (words : List String) : Run Nat := do
  let index := ((← value? "OPTIND").bind String.toNat?).getD 1
  let offset := (← get).optionOffset
  let silent := known.startsWith ":"
  let current := (words[index - 2]?.getD "").toList
  let inWord := 1 < index && 0 < offset && offset < current.length
  let (letters,index) := if inWord then (current.drop offset,index)
    else match (words[index - 1]?.getD "").toList with
      | '-' :: c :: rest => (c :: rest,index + 1)
      | _ => ([],index)
  let finish (index offset : Nat) (letter : String) (status : Nat) : Run Nat := do
    assign "OPTIND" (toString index)
    assign target letter
    modify fun p => { p with optionOffset := offset }
    return status
  match letters with
  | [] => finish index 0 "?" 1
  | c :: rest =>
    if !inWord ∧ letters = ['-'] then return ← finish index 0 "?" 1
    let letter := String.singleton c
    let offset := if rest = [] then 0
      else (if inWord then current.length else rest.length + 2) - rest.length
    let refuse (text : String) (shown : String) : Run String := do
      if silent then
        assign "OPTARG" letter
        return shown
      else
        let _ ← write 2 (text ++ "\n")
        removeVariable "OPTARG"
        return "?"
    match takesValue? c known.toList with
    | none => finish index offset (← refuse ("Illegal option -" ++ letter) "?") 0
    | some true =>
      if rest ≠ [] then
        assign "OPTARG" (String.ofList rest)
        finish index 0 letter 0
      else match words[index - 1]? with
        | some value => do
          assign "OPTARG" value
          finish (index + 1) 0 letter 0
        | none => finish index 0 (← refuse ("No arg for -" ++ letter ++ " option") ":") 0
    | some false => do
      assign "OPTARG" ""
      finish index offset letter 0

def getopts (args : List String) : Run Nat := do
  match args with
  | known :: target :: words => do
    let words ← if words.isEmpty then do pure (← get).args else pure words
    nextOption known target words
  | _ => fail "Usage: getopts optstring var [arg...]"

/-- What is left of a line without the separators at its end. Letters that a backslash stands
before are left out with separators that they follow when nothing else is behind them. -/
def withoutEnd (blank : Letter → Bool) (line : List Letter) : List Letter :=
  let ending := (line.reverse.takeWhile fun l => l.quoted || blank l).reverse
  let kept := ending.takeWhile fun l => !blank l
  line.take (line.length - ending.length) ++ kept

/-- Splits a line into at most so many values; the last one takes what is left. -/
def splitLine (separators : List Char) : Nat → List Letter → List String
  | 0,_ => []
  | n + 1,line =>
    let separates (l : Letter) : Bool := !l.quoted && separators.contains l.c
    let blank (l : Letter) : Bool := separates l && defaultSeparators.contains l.c
    let line := line.dropWhile blank
    let word := line.takeWhile fun l => !separates l
    let gap := (line.drop word.length).takeWhile blank
    let after := line.drop (word.length + gap.length)
    let rest := match after with
      | l :: more => if separates l then more.dropWhile blank else after
      | [] => []
    if n = 0 then
      if rest.all fun l => l.quoted || blank l then [textOf word]
      else [textOf (withoutEnd blank line)]
    else textOf word :: splitLine separators n rest

/-- Reads a line from the input; unless it is `raw`, a backslash takes the meaning of the next
letter away. Tells whether the line was ended. -/
def readLetters (raw : Bool) : Nat → List Letter → Run (List Letter × Bool)
  | 0,taken => return (taken,false)
  | n + 1,taken => do
    let line ← readLine 0
    let ended := line.endsWith "\n"
    let text := (if ended then line.toList.dropLast else line.toList).filter (· ≠ '\x00')
    if raw then return (taken ++ text.map fun c => ⟨c,false⟩,ended)
    let rec go : List Char → List Letter × Bool
      | [] => ([],false)
      | ['\\'] => ([],true)
      | '\\' :: c :: rest =>
        let (letters,continued) := go rest
        (⟨c,true⟩ :: letters,continued)
      | c :: rest =>
        let (letters,continued) := go rest
        (⟨c,false⟩ :: letters,continued)
    let (letters,continued) := go text
    if continued && ended then readLetters raw n (taken ++ letters)
    else return (taken ++ letters,ended)

def readValues (args : List String) : Run Nat := do
  let (found,names) ← optionsOf "rp:" args
  if names.isEmpty then fail "arg count"
  let (letters,ended) ← readLetters (found.any (·.1 = 'r')) 100000 []
  let values := splitLine (← separators) names.length letters
  for (name,i) in names.zipIdx do
    unless isName name do fail (name ++ ": bad variable name")
    assign name (values[i]?.getD "")
  return if ended then 0 else 1

def changeDirectory (args : List String) : Run Nat := do
  let (_,args) ← optionsOf "LP" args
  let (target,shown) ← match args with
    | [] => do pure ((← value? "HOME").getD "",false)
    | "-" :: _ => do pure ((← value? "OLDPWD").getD "",true)
    | path :: _ => pure (path,false)
  let path := if target = "" then "." else target
  let p ← get
  match p.world.disk.find p.directory path with
  | .ok (place,.directory) => do
    let move (name path : String) : Run Unit := do
      assign name path
      modify fun p => { p with
        vars := p.vars.modify name fun v => { v with exported := true } }
    move "OLDPWD" p.directory.path
    move "PWD" place.path
    modify fun p => { p with directory := place }
    if shown then print (place.path ++ "\n")
    return 0
  | _ => fail ("can't cd to " ++ path)

def symbolicMode (mask mode : Nat) (text : String) : Option Nat :=
  (text.toList.splitOn ',').foldlM (fun mode part =>
    let who := part.takeWhile "ugoa".toList.contains
    match part.drop who.length with
    | op :: letters =>
      if !"+-=".toList.contains op || !letters.all "rwxXst".toList.contains then none
      else
        let all := who = [] || who.contains 'a'
        let owners := (if all || who.contains 'u' then 0o700 else 0)
          ||| (if all || who.contains 'g' then 0o070 else 0)
          ||| (if all || who.contains 'o' then 0o007 else 0)
        let owners := if who = [] then owners - (owners &&& mask) else owners
        let bits := letters.foldl (fun bits c => bits ||| match c with
          | 'r' => 0o444
          | 'w' => 0o222
          | 'x' => 0o111
          | 'X' => if mode &&& 0o111 ≠ 0 then 0o111 else 0
          | _ => 0) 0
        let bits := bits &&& owners
        some (match op with
          | '+' => mode ||| bits
          | '-' => mode - (mode &&& bits)
          | _ => (mode - (mode &&& owners)) ||| bits)
    | [] => none) mode

def modeDigits (mask : Nat) : String :=
  let ds := Nat.toDigits 8 mask
  String.ofList (List.replicate (4 - ds.length) '0' ++ ds)

def changeMask (args : List String) : Run Nat := do
  let (found,args) ← optionsOf "S" args
  match args with
  | [] =>
    let mask := (← get).mask
    if found.isEmpty then print (modeDigits mask ++ "\n")
    else
      let part (who : String) (shift : Nat) : String :=
        let bits := (0o777 - mask) >>> (3 * shift) % 8
        let letters := (if bits / 4 % 2 = 1 then "r" else "")
          ++ (if bits / 2 % 2 = 1 then "w" else "") ++ if bits % 2 = 1 then "x" else ""
        who ++ "=" ++ letters
      print (part "u" 2 ++ "," ++ part "g" 1 ++ "," ++ part "o" 0 ++ "\n")
    return 0
  | text :: _ =>
    let become (mask : Nat) : Run Nat := do
      modify fun p => { p with mask := mask }
      return 0
    if text.toList.head?.any Char.isDigit then
      if text.toList.all isOctal then become (ofDigits 8 text.toList % 0o1000)
      else fail ("Illegal number: " ++ text)
    else match symbolicMode 0 (0o777 - (← get).mask) text with
      | some mode => become (0o777 - mode)
      | none => fail ("Illegal mode: " ++ text)

def killUsage : String :=
  "Usage: kill [-s sigspec | -signum | -sigspec] [pid | job]... or\nkill -l [exitstatus]"

def send (signal process : Nat) : Run Bool := do
  let p ← get
  if process = p.number then
    unless signal = 0 do
      set { p with world := { p.world with signals := p.world.signals ++ [(process,signal)] } }
    return true
  if p.jobs.any (·.number = process) then
    let stop (j : Job) : Job :=
      if j.number = process && !Signal.isIgnored signal then
        { j with status := 128 + signal, held := [] } else j
    set { p with jobs := p.jobs.map stop }
    return true
  return false

def killProcesses (args : List String) : Run Nat := do
  let usage : Run Nat := fail killUsage
  let (signal?,list,targets) ← match args with
    | [] => pure (none,false,[])
    | arg :: rest =>
      match arg.toList with
      | '-' :: name =>
        match Signal.read? (String.ofList name) with
        | some n => pure (some n,false,rest)
        | none => do
          let (found,rest) ← optionsOf "ls:" args
          let signal? ← match found.find? (·.1 = 's') with
            | none => pure none
            | some (_,name) =>
              match Signal.read? name with
              | some n => pure (some n)
              | none => fail ("invalid signal number or name: " ++ name)
          pure (signal?,found.any (·.1 = 'l'),rest)
      | _ => pure (none,false,args)
  if list then
    match targets with
    | [] => print (String.join (("0" :: Signal.names.tail).map (· ++ "\n")))
    | text :: _ =>
      match text.toNat? with
      | some n =>
        let n := if 128 < n then n - 128 else n
        if 0 < n ∧ n ≤ 64 then print (Signal.name n ++ "\n")
        else fail ("invalid signal number or exit status: " ++ text)
      | none => fail ("Illegal number: " ++ text)
    return 0
  if targets.isEmpty then return ← usage
  let mut status := 0
  for target in targets do
    let process ← number target
    unless ← send (signal?.getD 15) process do
      warn "No such process\n"
      status := 1
  return status

def setTraps (args : List String) : Run Nat := do
  let (_,args) ← optionsOf "" args
  let traps := (← get).traps
  match args with
  | [] =>
    for (n,action) in traps.mergeSort (fun a b => a.1 ≤ b.1) do
      print ("trap -- " ++ quotedText action ++ " " ++ Signal.name n ++ "\n")
    return 0
  | first :: rest =>
    let isNumber := first ≠ "" && first.toList.all Char.isDigit && (Signal.read? first).isSome
    let (action?,names) := if rest.isEmpty || isNumber then (none,args) else (some first,rest)
    let action? := if action? = some "-" then none else action?
    for name in names do
      match Signal.read? name with
      | none =>
        let _ ← write 2 ("trap: " ++ name ++ ": bad trap\n")
        return 1
      | some n => modify fun p =>
        let others := p.traps.filter (·.1 ≠ n)
        { p with traps := match action? with
          | some action => (n,action) :: others
          | none => others }
    return 0

def defineAliases (args : List String) : Run Nat := do
  let shown (a : String × String) : String := a.1 ++ "=" ++ quotedText a.2 ++ "\n"
  match args with
  | [] =>
    print (String.join ((← get).aliases.map shown))
    return 0
  | args =>
    let mut status := 0
    for arg in args do
      match splitBinding arg with
      | (name,some text) => modify fun p =>
        { p with aliases := p.aliases.filter (·.1 ≠ name) ++ [(name,text)] }
      | (name,none) =>
        match (← get).aliases.find? (·.1 = name) with
        | some a => print (shown a)
        | none =>
          let _ ← write 2 ("alias: " ++ name ++ " not found\n")
          status := 1
    return status

def removeAliases (args : List String) : Run Nat := do
  let (found,args) ← optionsOf "a" args
  unless found.isEmpty do
    modify fun p => { p with aliases := [] }
    return 0
  let mut status := 0
  for name in args do
    if (← get).aliases.any (·.1 = name) then
      modify fun p => { p with aliases := p.aliases.filter (·.1 ≠ name) }
    else
      let _ ← write 2 ("unalias: " ++ name ++ " not found\n")
      status := 1
  return status

def searchPath : Run (List String) := do
  return ((← value? "PATH").map fun text => (text.toList.splitOn ':').map String.ofList).getD []

def lookup? (name : String) : Run (Option String) := do
  let p ← get
  return (← searchPath).findSome? fun dir =>
    let path := if dir = "" || dir.endsWith "/" then dir ++ name else dir ++ "/" ++ name
    match p.world.disk.find p.directory path with
    | .ok (_,.file _ _) | .ok (_,.tool _) => some path
    | _ => none

def describe (brief : Bool) (name : String) : Run Nat := do
  let p ← get
  let say (short long : String) : Run Nat := do
    print ((if brief then short else name ++ long) ++ "\n")
    return 0
  if keywords.contains name then return ← say name " is a shell keyword"
  if let some (_,text) := p.aliases.find? (·.1 = name) then
    return ← say ("alias " ++ name ++ "=" ++ quotedText text) (" is an alias for " ++ text)
  if p.functions.contains name then return ← say name " is a shell function"
  if specialBuiltins.contains name then return ← say name " is a special shell builtin"
  if isBuiltin name then return ← say name " is a shell builtin"
  let found ← if name.contains '/' then
      pure (match p.world.disk.find p.directory name with
        | .ok (_,item) => if item.isExecutable then some name else none
        | .error _ => none)
    else lookup? name
  match found with
  | some path => say path (" is " ++ path)
  | none =>
    unless brief do print (name ++ ": not found\n")
    return 127

def describeAll (brief : Bool) (names : List String) : Run Nat := do
  let mut status := 0
  for name in names do
    let s ← describe brief name
    if s ≠ 0 then status := s
  return status

def test (word : String) (args : List String) : Run Nat := do
  if word = "[" ∧ !args.getLast?.any (·.startsWith "]") then fail "missing ]"
  let words := if word = "[" then args.dropLast else args
  let p ← get
  match holds ⟨p.world.disk,p.directory⟩ (words.length + 1) words with
  | .ok b => return if b then 0 else 1
  | .error text => fail text

/-- Writes to the output; a stream that takes nothing is an error. -/
def emit (word text : String) (status : Nat) : Run Nat := do
  if text ≠ "" then
    unless ← write 1 text do
      warn (word ++ ": I/O error")
      return 1
  return status

def printFormat (args : List String) : Run Nat := do
  let (_,args) ← optionsOf "" args
  match args with
  | [] => fail "usage: printf format [arg ...]"
  | text :: args =>
    let p := printed text.toList (args.length + 1) args
    for w in p.warnings do warn w
    if let some text := p.fault then warn text
    let status := if p.fault.isSome then 2 else if p.warnings.isEmpty then 0 else 1
    emit "printf" (String.ofList p.text) status

/-- Shows what jobs wrote, and takes them as ended. -/
def showHeld (number? : Option Nat) : Run Unit := do
  for j in (← get).jobs do
    if number?.all (· = j.number) then
      for (pipe,file) in j.held do
        modify fun p =>
          let text := p.world.pipes[pipe]?.getD ""
          { p with world := writeFile p.world file text }
  modify fun p => { p with
    jobs := p.jobs.map fun j => if number?.all (· = j.number) then { j with held := [] } else j }

def awaitJobs (args : List String) : Run Nat := do
  let (_,args) ← optionsOf "" args
  match args with
  | [] =>
    showHeld none
    return 0
  | args =>
    let mut status := 0
    for arg in args do
      let n ← number arg
      match (← get).jobs.find? (·.number = n) with
      | some j =>
        showHeld (some n)
        if 128 < j.status then
          if let some text := Signal.report (j.status - 128) then
            let _ ← write 2 (text ++ "\n")
        status := j.status
      | none => status := 127
    return status

end Run
end Script
end CommandShell
