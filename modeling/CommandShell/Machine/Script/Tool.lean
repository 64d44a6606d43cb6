import CommandShell.Machine.Script.Builtin

/-! The programs of the machine that scripts may call: small tools on texts and files. -/
namespace CommandShell
namespace Script
namespace Tool

open Run

def linesOf (text : String) : List String :=
  let rec go (line : List Char) : List Char → List (List Char)
    | [] => if line = [] then [] else [line.reverse]
    | '\n' :: rest => ('\n' :: line).reverse :: go [] rest
    | c :: rest => go (c :: line) rest
  (go [] text.toList).map String.ofList

def chomp (line : String) : String := if line.endsWith "\n" then (line.dropEnd 1).toString else line

def complain (text : String) : Run Unit := do
  let p ← get
  let _ ← write 2 (p.name ++ ": " ++ text ++ "\n")

def giveUp (status : Nat) (text : String) : Run Nat := do
  complain text
  return status

def misused (text : String) : Run Nat := do
  let name := (← get).name
  complain text
  let _ ← write 2 ("Try '" ++ name ++ " --help' for more information.\n")
  return 1

/-- Runs `act` on each argument. The status is 1 if any run gave another one than 0. -/
def each (args : List String) (act : String → Run Nat) : Run Nat := do
  let mut status := 0
  for arg in args do
    if (← act arg) ≠ 0 then status := 1
  return status

/-- Flags and other arguments; a flag in `valued` takes the rest of its word or the next one. -/
def flags (valued : String) : List String → List (Char × String) × List String
  | [] => ([],[])
  | "--" :: rest => ([],rest)
  | arg :: rest =>
    match arg.toList with
    | '-' :: c :: letters =>
      if valued.toList.contains c then
        if letters = [] then
          match rest with
          | value :: rest =>
            let (found,args) := flags valued rest
            ((c,value) :: found,args)
          | [] => ([(c,"")],[])
        else
          let (found,args) := flags valued rest
          ((c,String.ofList letters) :: found,args)
      else
        let (found,args) := flags valued rest
        ((c :: letters).map (·,"") ++ found,args)
    | _ =>
      let (found,args) := flags valued rest
      (found,arg :: args)

def has (found : List (Char × String)) (c : Char) : Bool := found.any (·.1 = c)

def content (arg : String) : Run (Except IoError String) := do
  if arg = "-" then
    let text ← readAll 0
    return .ok text
  let p ← get
  return (p.world.disk.read p.directory arg).map Text.narrow

def contents (args : List String) (refusal : String → IoError → String) :
    Run (List (String × String) × Nat) := do
  let mut found := #[]
  let mut status := 0
  for arg in if args.isEmpty then ["-"] else args do
    match ← content arg with
    | .ok text => found := found.push (arg,text)
    | .error e =>
      complain (refusal arg e)
      status := 1
  return (found.toList,status)

def plainRefusal (arg : String) (e : IoError) : String := arg ++ ": " ++ e.reason

def openRefusal (arg : String) (e : IoError) : String :=
  match e with
  | .isDirectory => "error reading '" ++ arg ++ "': " ++ e.reason
  | e => "cannot open '" ++ arg ++ "' for reading: " ++ e.reason

def opened? (arg : String) : Run (Option OpenFile) := do
  if arg = "-" then open? 0
  else
    let p ← get
    return (p.world.disk.find p.directory arg).toOption.map fun (place,_) =>
      ⟨.file place,0,false,true,false⟩

def isOutput (arg : String) : Run Bool := do
  match ← opened? arg,← open? 1 with
  | some source,some output =>
    return source.goal = output.goal && remaining (← get).world source ≠ ""
  | _,_ => return false

def cat (args : List String) : Run Nat := do
  let (found,args) := flags "" args
  let numbered := has found 'n'
  each (if args.isEmpty then ["-"] else args) fun arg => do
    if ← isOutput arg then return ← giveUp 1 (arg ++ ": input file is output file")
    match ← content arg with
    | .ok text =>
      if numbered then
        for (line,i) in (linesOf text).zipIdx do
          let digits := toString (i + 1)
          print (String.ofList (List.replicate (6 - digits.length) ' ') ++ digits ++ "\t" ++ line)
      else print text
      return 0
    | .error e => giveUp 1 (plainRefusal arg e)

def baseOf (path : String) : String :=
  match (Disk.components path).getLast? with
  | some name => name
  | none => if path = "" then "" else "/"

def basename (args : List String) : Run Nat := do
  match args with
  | [] => misused "missing operand"
  | path :: ending =>
    let base := baseOf path
    let base := match ending with
      | cut :: _ =>
        if base ≠ cut && base.endsWith cut then (base.dropEnd cut.length).toString else base
      | [] => base
    print (base ++ "\n")
    return 0

def dirname (args : List String) : Run Nat := do
  if args.isEmpty then return ← misused "missing operand"
  for path in args do
    let trimmed := (path.toList.reverse.dropWhile (· = '/')).dropWhile (· ≠ '/')
    let dir := String.ofList (trimmed.dropWhile (· = '/')).reverse
    print ((if dir ≠ "" then dir else if path.startsWith "/" then "/" else ".") ++ "\n")
  return 0

def modeAfter (mask mode : Nat) (text : String) : Option Nat :=
  if text ≠ "" ∧ text.toList.all isOctal then some (ofDigits 8 text.toList)
  else symbolicMode mask mode text

def chmod (args : List String) : Run Nat := do
  let isMode (arg : String) : Bool := match arg.toList with
    | '-' :: c :: _ => "rwxXst".toList.contains c
    | _ => true
  let args := args.filter fun arg => isMode arg && arg ≠ "--"
  match args with
  | [] => misused "missing operand"
  | [mode] => misused ("missing operand after '" ++ mode ++ "'")
  | text :: files =>
    if (modeAfter 0 0 text).isNone then
      return ← misused ("invalid mode: '" ++ text ++ "'")
    each files fun file => do
      let p ← get
      match p.world.disk.find p.directory file with
      | .error e => giveUp 1 ("cannot access '" ++ file ++ "': " ++ e.reason)
      | .ok (place,.file content mode) => do
        let mode := (modeAfter p.mask mode text).getD mode
        let _ ← changeDisk fun d => .ok (d.put place (.file content mode))
        return 0
      | .ok _ => return 0

def mkdir (args : List String) : Run Nat := do
  let (found,args) := flags "m" args
  if args.isEmpty then return ← misused "missing operand"
  each args fun path => do
    let p ← get
    let refuse (e : IoError) : Run Nat :=
      giveUp 1 ("cannot create directory '" ++ path ++ "': " ++ e.reason)
    if has found 'p' then
      let start := if path.startsWith "/" then [] else p.directory
      let place := (Disk.components path).foldl (fun place name =>
        (Disk.enter place name).toOption.getD place) start
      let blocked := (List.range place.length).any fun n =>
        (p.world.disk.item? (place.take (n + 1))).any fun item => !item.isDirectory
      if blocked then return ← refuse .notDirectory
      let _ ← changeDisk fun d => .ok (d.makeDirectory place)
      return 0
    match p.world.disk.resolve p.directory path with
    | .error e => refuse e
    | .ok place =>
      if (p.world.disk.item? place).isSome then refuse .occupied
      else
        let _ ← changeDisk fun d => .ok (d.put place .directory)
        return 0

def rmdir (args : List String) : Run Nat := do
  if args.isEmpty then return ← misused "missing operand"
  each args fun path => do
    let p ← get
    let refuse (e : IoError) : Run Nat :=
      giveUp 1 ("failed to remove '" ++ path ++ "': " ++ e.reason)
    match p.world.disk.find p.directory path with
    | .error e => refuse e
    | .ok (place,.directory) =>
      if (p.world.disk.children place).isEmpty then
        let _ ← changeDisk fun d => .ok (d.remove place)
        return 0
      else refuse .notEmpty
    | .ok _ => refuse .notDirectory

def rm (args : List String) : Run Nat := do
  let (found,args) := flags "" args
  let force := has found 'f'
  if args.isEmpty then
    if force then return 0 else return ← misused "missing operand"
  each args fun path => do
    let p ← get
    match p.world.disk.find p.directory path with
    | .error .notFound =>
      if force then return 0
      else giveUp 1 ("cannot remove '" ++ path ++ "': " ++ IoError.notFound.reason)
    | .error e => giveUp 1 ("cannot remove '" ++ path ++ "': " ++ e.reason)
    | .ok (place,item) =>
      if item.isDirectory ∧ ¬(has found 'r' ∨ has found 'R') then
        giveUp 1 ("cannot remove '" ++ path ++ "': " ++ IoError.isDirectory.reason)
      else
        let _ ← changeDisk fun d => .ok (d.remove place)
        return 0

def touch (args : List String) : Run Nat := do
  let (found,args) := flags "" args
  if args.isEmpty then return ← misused "missing file operand"
  each args fun path => do
    let p ← get
    match p.world.disk.resolve p.directory path with
    | .error e => giveUp 1 ("cannot touch '" ++ path ++ "': " ++ e.reason)
    | .ok place =>
      if (p.world.disk.item? place).isSome || has found 'c' then return 0
      match p.world.disk.item? place.dropLast with
      | some .directory => do
        let mode := 0o666 - (0o666 &&& p.mask)
        let _ ← changeDisk fun d => .ok (d.writeFile place [] mode)
        return 0
      | _ => giveUp 1 ("cannot touch '" ++ path ++ "': " ++ IoError.notFound.reason)

def goal (source target : String) : Run (Except IoError Place) := do
  let p ← get
  return do
    let place ← p.world.disk.resolve p.directory target
    match p.world.disk.item? place with
    | some .directory => return place ++ [baseOf source]
    | _ => return place

def transfer (verb : String) (moves recursive : Bool) (args : List String) : Run Nat := do
  match args.reverse with
  | [] => misused "missing file operand"
  | [source] => misused ("missing destination file operand after '" ++ source ++ "'")
  | target :: sources =>
    each sources.reverse fun source => do
      let p ← get
      let d := p.world.disk
      match d.find p.directory source,← goal source target with
      | .error e,_ => giveUp 1 ("cannot stat '" ++ source ++ "': " ++ e.reason)
      | .ok _,.error e => giveUp 1 ("cannot " ++ verb ++ " '" ++ target ++ "': " ++ e.reason)
      | .ok (origin,item),.ok place =>
        if item.isDirectory && !moves && !recursive then
          return ← giveUp 1 ("-r not specified; omitting directory '" ++ source ++ "'")
        if origin = place then
          return ← giveUp 1 ("'" ++ source ++ "' and '" ++ target ++ "' are the same file")
        unless (d.item? place.dropLast).any Item.isDirectory do
          return ← giveUp 1
            ("cannot " ++ verb ++ " '" ++ target ++ "': " ++ IoError.notFound.reason)
        let masked : Item → Item
          | .file content mode => .file content (if moves then mode else mode - (mode &&& p.mask))
          | item => item
        let inside := d.items.toList.filter fun e => origin.isPrefixOf e.1
        let _ ← changeDisk fun d =>
          let d := if moves then d.remove origin else d
          .ok (inside.foldl (fun d e => d.put (place ++ e.1.drop origin.length) (masked e.2)) d)
        return 0

def cp (args : List String) : Run Nat :=
  let (found,args) := flags "" args
  transfer "create regular file" false (has found 'r' || has found 'R' || has found 'a') args

def mv (args : List String) : Run Nat :=
  let (_,args) := flags "" args
  transfer "move" true true args

def ls (args : List String) : Run Nat := do
  let (found,args) := flags "" args
  let p ← get
  let shown (names : List String) : List String :=
    let names := if has found 'a' then names ++ [".",".."] else names
    let hidden := has found 'a' || has found 'A'
    (names.filter fun name => hidden || !name.startsWith ".").mergeSort (· ≤ ·)
  let mut status := 0
  let mut files := #[]
  let mut dirs := #[]
  for path in (if args.isEmpty then ["."] else args).mergeSort (· ≤ ·) do
    match p.world.disk.find p.directory path with
    | .error e =>
      complain ("cannot access '" ++ path ++ "': " ++ e.reason)
      status := 2
    | .ok (place,.directory) =>
      if has found 'd' then files := files.push path
      else dirs := dirs.push (path,shown ((p.world.disk.children place).map (·.1)))
    | .ok _ => files := files.push path
  print (String.join (files.toList.map (· ++ "\n")))
  let named := 1 < args.length
  for ((path,names),i) in dirs.toList.zipIdx do
    if named then
      if 0 < i ∨ !files.isEmpty then print "\n"
      print (path ++ ":\n")
    print (String.join (names.map (· ++ "\n")))
  return status

/-- The number in the place of a flag such as `-3`, as a flag of its own. -/
def countFlag (args : List String) : List String :=
  args.flatMap fun arg =>
    match arg.toList with
    | '-' :: c :: rest => if c.isDigit then ["-n",String.ofList (c :: rest)] else [arg]
    | _ => [arg]

def part (args : List String) (byLines : Nat → Bool → List String → List String)
    (byLetters : Nat → Bool → List Char → List Char) : Run Nat := do
  let (found,args) := flags "nc" (countFlag args)
  let (files,status) ← contents args openRefusal
  let count (c : Char) : Option (Nat × Bool) :=
    (found.find? (·.1 = c)).map fun (_,text) =>
      let sign := text.startsWith "-" || text.startsWith "+"
      (((if sign then (text.drop 1).toString else text).toNat?).getD 10,sign)
  for ((name,text),i) in files.zipIdx do
    if 1 < args.length then
      if 0 < i then print "\n"
      print ("==> " ++ (if name = "-" then "standard input" else name) ++ " <==\n")
    match count 'c' with
    | some (n,sign) => print (String.ofList (byLetters n sign text.toList))
    | none =>
      let (n,sign) := (count 'n').getD (10,false)
      print (String.join (byLines n sign (linesOf text)))
  return status

def head (args : List String) : Run Nat :=
  part args (fun n less xs => xs.take (if less then xs.length - n else n))
    (fun n less xs => xs.take (if less then xs.length - n else n))

def tail (args : List String) : Run Nat :=
  part args (fun n after xs => xs.drop (if after then n - 1 else xs.length - n))
    (fun n after xs => xs.drop (if after then n - 1 else xs.length - n))

def words (text : String) : Nat :=
  (text.toList.foldl (fun (n,inside) c =>
    let blank := c = ' ' || ('\t' ≤ c && c ≤ '\r')
    (if !blank && !inside then n + 1 else n,!blank)) ((0 : Nat),false)).1

def wc (args : List String) : Run Nat := do
  let (found,args) := flags "" args
  let (files,status) ← contents args plainRefusal
  let all := found.isEmpty
  let counts (text : String) : List Nat :=
    (if all || has found 'l' then [text.toList.count '\n'] else [])
      ++ (if all || has found 'w' then [words text] else [])
      ++ if all || has found 'c' || has found 'm' then [text.length] else []
  let rows := files.map fun f => (f.1,counts f.2)
  let total := rows.foldl (fun sums r =>
    if sums.isEmpty then r.2 else List.zipWith (· + ·) sums r.2) []
  let rows := if 1 < args.length then rows ++ [("total",total)] else rows
  let size := (String.join (files.map Prod.snd)).length
  let single := (counts "").length = 1 && args.length ≤ 1
  let width := if single then 0 else if args.isEmpty then 7 else (toString size).length
  for (name,row) in rows do
    let cells := row.map fun n =>
      String.ofList (List.replicate (width - (toString n).length) ' ') ++ toString n
    let mark := if name = "-" && args.isEmpty then "" else " " ++ name
    print (" ".intercalate cells ++ mark ++ "\n")
  return status

def leadingNumber (line : String) : Int :=
  let s := line.toList.dropWhile fun c => c = ' ' || c = '\t'
  match s with
  | '-' :: s => -(ofDigits 10 (s.takeWhile Char.isDigit) : Int)
  | s => ofDigits 10 (s.takeWhile Char.isDigit)

def sort (args : List String) : Run Nat := do
  let (found,args) := flags "" args
  let (files,status) ← contents args fun arg e => "cannot read: " ++ plainRefusal arg e
  if status ≠ 0 then return 2
  let lines := files.flatMap fun f => (linesOf f.2).map chomp
  let before (a b : String) : Bool :=
    if has found 'n' && leadingNumber a ≠ leadingNumber b then leadingNumber a < leadingNumber b
    else a ≤ b
  let sorted := lines.mergeSort fun a b => if has found 'r' then before b a else before a b
  let sorted := if has found 'u' then sorted.eraseDups else sorted
  print (String.join (sorted.map (· ++ "\n")))
  return 0

def uniq (args : List String) : Run Nat := do
  let (found,args) := flags "" args
  let (files,status) ← contents args plainRefusal
  let groups := (files.flatMap fun f => (linesOf f.2).map chomp).splitBy (· == ·)
  for group in groups do
    let line := group.headD ""
    let count := toString group.length
    let shown := if has found 'c' then
        String.ofList (List.replicate (7 - count.length) ' ') ++ count ++ " " ++ line
      else line
    let wanted := (!has found 'd' || 1 < group.length) && (!has found 'u' || group.length = 1)
    if wanted then print (shown ++ "\n")
  return status

def lettersOfSet : Nat → List Char → List Char
  | 0,_ => []
  | _,[] => []
  | n + 1,'[' :: ':' :: rest =>
    let name := rest.takeWhile Char.isAlpha
    let ranges := (Glob.classRanges? (String.ofList name)).getD []
    let letters := (List.range 256).map Char.ofNat
    (letters.filter fun c => ranges.any fun r => r.1 ≤ c && c ≤ r.2)
      ++ lettersOfSet n (rest.drop (name.length + 2))
  | n + 1,'\\' :: rest =>
    let (c,rest) := escape rest
    c :: lettersOfSet n rest
  | n + 1,a :: '-' :: b :: rest =>
    (List.range (b.toNat + 1 - a.toNat)).map (fun i => Char.ofNat (a.toNat + i))
      ++ lettersOfSet n rest
  | n + 1,c :: rest => c :: lettersOfSet n rest

def squeezed (letters : List Char) : List Char → List Char
  | a :: b :: rest =>
    if a = b && letters.contains a then squeezed letters (b :: rest)
    else a :: squeezed letters (b :: rest)
  | s => s

def tr (args : List String) : Run Nat := do
  let (found,args) := flags "" args
  let sets := args.map fun s => lettersOfSet (s.length + 1) s.toList
  let text := (← readAll 0).toList
  match sets with
  | [] => misused "missing operand"
  | first :: rest =>
    let isIn (c : Char) : Bool := first.contains c != (has found 'c' || has found 'C')
    let second := rest.headD []
    let swap (c : Char) : Char :=
      if !isIn c then c
      else match second.getLast? with
        | none => c
        | some last => second[first.idxOf c]?.getD last
    let result :=
      if has found 'd' then text.filter fun c => !isIn c
      else if has found 's' then squeezed (if second = [] then first else second) (text.map swap)
      else text.map swap
    print (String.ofList result)
    return 0

def seq (args : List String) : Run Nat := do
  match args.mapM String.toInt? with
  | some [last] => count 1 1 last
  | some [first,last] => count first 1 last
  | some [first,step,last] => count first step last
  | some _ => misused "missing operand"
  | none => misused ("invalid floating point argument: '"
      ++ (args.find? fun a => a.toInt?.isNone).getD "" ++ "'")
where
  count (first step last : Int) : Run Nat := do
    if step = 0 then return ← misused "invalid Zero increment value: '0'"
    let n := if 0 < step then (last - first) / step + 1 else (first - last) / -step + 1
    for i in List.range n.toNat do
      print (toString (first + i * step) ++ "\n")
    return 0

def tee (args : List String) : Run Nat := do
  let (found,args) := flags "" args
  let text ← readAll 0
  print text
  each args fun path => do
    let p ← get
    match p.world.disk.resolve p.directory path with
    | .error e => giveUp 1 (plainRefusal path e)
    | .ok place =>
      match p.world.disk.item? place.dropLast,p.world.disk.item? place with
      | some .directory,some .directory => giveUp 1 (plainRefusal path .isDirectory)
      | some .directory,old => do
        let (content,mode) := match old with
          | some (.file content mode) => (if has found 'a' then content else [],mode)
          | _ => ([],0o666 - (0o666 &&& p.mask))
        let _ ← changeDisk fun d => .ok (d.writeFile place (content ++ Text.bytes text) mode)
        return 0
      | _,_ => giveUp 1 (plainRefusal path .notFound)

def printenv (args : List String) : Run Nat := do
  let vars ← exports
  match args with
  | [] =>
    for (name,value) in vars do print (name ++ "=" ++ value ++ "\n")
    return 0
  | names => each names fun name => do
    match vars.find? (·.1 = name) with
    | some (_,value) =>
      print (value ++ "\n")
      return 0
    | none => return 1

def sleep (args : List String) : Run Nat := do
  if args.isEmpty then return ← misused "missing operand"
  for arg in args do
    let unit := arg.endsWith "s" || arg.endsWith "m" || arg.endsWith "h"
    let number := if unit then (arg.dropEnd 1).toString else arg
    let digits := number.toList.filter (· ≠ '.')
    if digits = [] ∨ !digits.all Char.isDigit then
      return ← misused ("invalid time interval '" ++ arg ++ "'")
  return 0

def all : List (String × (List String → Run Nat)) :=
  [("[",test "["),("basename",basename),("cat",cat),("chmod",chmod),("cp",cp),
    ("dirname",dirname),
    ("echo",fun args => do print (echoed args); return 0),("false",fun _ => return 1),
    ("head",head),("ls",ls),("mkdir",mkdir),("mv",mv),("printenv",printenv),
    ("printf",printFormat),("pwd",fun _ => do print ((← get).directory.path ++ "\n"); return 0),
    ("rm",rm),("rmdir",rmdir),("seq",seq),("sleep",sleep),("sort",sort),("tail",tail),
    ("tee",tee),("test",test "test"),("touch",touch),("tr",tr),("true",fun _ => return 0),
    ("uname",fun _ => do print "Linux\n"; return 0),("uniq",uniq),("wc",wc)]

def find? (name : String) : Option (List String → Run Nat) := (all.find? (·.1 = name)).map (·.2)

end Tool
end Script
end CommandShell
