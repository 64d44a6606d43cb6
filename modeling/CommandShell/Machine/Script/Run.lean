import CommandShell.Machine.Image
import CommandShell.Machine.Script.Tool

/-! How scripts run: commands, the programs they call, and what they are read from. -/
namespace CommandShell
namespace Script

open Run

/-- What is left to do when a redirection is known: the stream, and where it leads. -/
inductive Link
  | close (stream : Nat)
  | follow (stream other : Nat)
  | file (stream : Nat) (direction : Direction) (path : String)
  | text (stream : Nat) (content : Word)

namespace Link

def refusal (makes : Bool) (path : String) (e : IoError) : String :=
  let reason := match e with
    | .notFound | .notDirectory => if makes then "Directory nonexistent" else "No such file"
    | e => e.reason
  (if makes then "cannot create " else "cannot open ") ++ path ++ ": " ++ reason

/-- Opens a file for reading or writing; where it `makes` one, that is emptied unless `keeps`. -/
def openPath (path : String) (makes keeps clobber : Bool) (f : OpenFile) : Run Nat := do
  let p ← get
  let refuse (e : IoError) : Run Nat := fail (refusal makes path e)
  match p.world.disk.resolve p.directory path with
  | .error e => refuse e
  | .ok place =>
    match p.world.disk.item? place with
    | some .directory =>
      if makes then refuse .isDirectory else openFile { f with goal := .file place }
    | some .sink => openFile f
    | some (.tool _) => if makes then refuse .denied else openFile f
    | some (.file _ mode) =>
      if makes && !keeps then
        if !clobber then refuse .occupied
        else
          let _ ← changeDisk fun d => .ok (d.put place (.file [] mode))
          openFile { f with goal := .file place }
      else openFile { f with goal := .file place }
    | none =>
      if !makes then refuse .notFound
      else match p.world.disk.item? place.dropLast with
        | some .directory => do
          if path.endsWith "/" then return ← refuse .isDirectory
          let mode := 0o666 - (0o666 &&& p.mask)
          let _ ← changeDisk fun d => .ok (d.writeFile place [] mode)
          openFile { f with goal := .file place }
        | _ => refuse .notFound

def streamOf? : String → Option Nat
  | "/dev/stdin" => some 0
  | "/dev/stdout" => some 1
  | "/dev/stderr" => some 2
  | _ => none

def share (stream other : Nat) (refusal : String) : Run Unit := do
  match (← get).streams[other]? with
  | some n => connect stream n
  | none => fail refusal

def make (inner : Inner) : Link → Run Unit
  | close stream => modify fun p => { p with streams := p.streams.erase stream }
  | follow stream other => share stream other (toString other ++ ": Bad file descriptor")
  | text stream content => do
    let (_,reader,_) ← openPipe (← inner.value content)
    connect stream reader
  | file stream direction path => do
    match streamOf? path with
    | some other => share stream other (refusal true path .notFound)
    | none =>
      let f : OpenFile := ⟨.nothing,0,false,true,true⟩
      let n ← match direction with
        | .output clobber => do
          let protect := (← option 'C') && !clobber
          openPath path true false (!protect) { f with readable := false }
        | .append => openPath path true true true { f with append := true, readable := false }
        | .update => openPath path true true true f
        | _ => openPath path false true true { f with writable := false }
      connect stream n

def of (inner : Inner) (r : Redirection Word) : Run Link := do
  match r.direction with
  | .document n => return text r.stream ((← get).documents[n]?.getD [])
  | .duplicate => do
    let target ← inner.value r.target
    match target.toList with
    | ['-'] => return close r.stream
    | [d] =>
      if d.isDigit then return follow r.stream (d.toNat - '0'.toNat)
    | _ => pure ()
    modify fun p => { p with line := p.reached }
    fail "Syntax error: Bad fd number"
  | direction => do
    let path ← inner.value (← Inner.homed false r.target)
    return file r.stream direction path

end Link

/-- Runs `act` with streams redirected, and brings them back after it. Where a redirection fails,
`act` does not run; that is a fault if it is `strict`. Tells whether `act` ran. -/
def redirected (inner : Inner) (strict : Bool) (rs : List (Redirection Word)) (act : Run Unit) :
    Run Bool := do
  if rs.isEmpty then
    act
    return true
  let streams := (← get).streams
  let restore : Run Unit := modify fun p => { p with streams := streams }
  let links ← rs.mapM (Link.of inner)
  let made ← tryCatch (do links.forM (Link.make inner); pure true) fun l => do
    restore
    if strict || l ≠ .fault then throw l
    pure false
  if made then
    tryCatch act fun l => do
      restore
      throw l
    restore
  return made

def deliver (inner : Inner) : Run Unit := do
  let p ← get
  if p.copied then return
  let (mine,others) := p.world.signals.partition (·.1 = p.number)
  if mine.isEmpty then return
  set { p with world := { p.world with signals := others } }
  for (_,signal) in mine do
    match p.traps.find? fun t => t.1 = signal && signal ≠ 9 with
    | some (_,action) =>
      if action ≠ "" then
        let status := (← get).status
        inner.text false action
        setStatus status
    | none => unless Signal.isIgnored signal do throw (.killed signal)

/-- Runs `act` to the end of the process: what was to be run at the end runs, and what was held back
is shown. -/
def finishing (inner : Inner) (act : Run Unit) : Run Unit := do
  let leave? ← tryCatch (do act; pure none) fun l => pure (some l)
  if let some (.killed signal) := leave? then
    showHeld none
    throw (.killed signal)
  modify fun p => { p with builtin := none }
  match (← get).traps.find? (·.1 = 0) with
  | none => pure ()
  | some (_,action) => do
    modify fun p => { p with traps := p.traps.filter (·.1 ≠ 0) }
    let status := (← get).status
    let left ← tryCatch (do inner.text false action; pure false) fun _ => pure true
    unless left do setStatus status
  showHeld none
  modify fun p => { p with status := p.status % 256 }
  throw .exit

/-- What a copy of the process does: nothing but what it is told to ignore remains of the signals
it acted upon. -/
def copy (inner : Inner) (act : Run Unit) : Run Unit := do
  modify fun p => { p with traps := p.traps.filter (·.2 = ""), jobs := [] }
  finishing inner act

def reportKill (signal? : Option Nat) : Run Unit := do
  match signal?.bind Signal.report with
  | some text =>
    let _ ← write 2 (text ++ "\n")
  | none => return ()

def execute (inner : Inner) (path : String) (args : List String) : Run Unit := do
  let p ← get
  let vars := (← exports).map fun (name,value) => name ++ "=" ++ value
  match Image.load p.world.disk p.directory path args vars with
  | .ok image => inner.start image.tool image.args
  | .error .notProgram => inner.start "sh" ("/bin/sh" :: path :: args.tail)
  | .error e => do
    let missing := [IoError.notFound,.notDirectory,.nameTooLong,.tooDeep].contains e
    let reason := match e with
      | .notFound | .notDirectory => "not found"
      | e => e.reason
    warn (args.headD "" ++ ": " ++ reason)
    setStatus (if missing then 127 else 126)
    throw .exit

def programOf? (name : String) : Run (Option String) :=
  if name.contains '/' then return some name else lookup? name

def external (inner : Inner) (args : List String) : Run Unit := do
  let name := args.headD ""
  match ← programOf? name with
  | none => do
    warn (name ++ ": not found")
    setStatus 127
  | some path => do
    let (status,signal?) ← forked do
      let n ← newNumber
      modify fun p => { p with number := n, copied := false }
      execute inner path args
    reportKill signal?
    setStatus status

def source (inner : Inner) (args : List String) : Run Nat := do
  let (_,args) ← optionsOf "" args
  match args with
  | [] => return 0
  | name :: _ => do
    let path ← if name.contains '/' then pure name
      else match ← lookup? name with
        | some path => pure path
        | none => fail (name ++ ": not found")
    let p ← get
    match p.world.disk.read p.directory path with
    | .error e => fail (Link.refusal false path e)
    | .ok content => do
      set { p with builtin := some path, status := 0 }
      tryCatch (inner.text false (Text.narrow content)) fun l => do
        unless l = .returning do throw l
      return (← get).status

def exec (inner : Inner) (args : List String) : Run Nat := do
  let (_,args) ← optionsOf "" args
  match args with
  | [] => return 0
  | name :: _ => do
    match ← programOf? name with
    | some path => execute inner path args
    | none => do
      warn (name ++ ": not found")
      setStatus 127
      throw .exit
    return 0

def builtin (inner : Inner) (tested : Bool) (name : String) (args : List String) : Run Nat := do
  match name with
  | ":" | "true" => return 0
  | "false" => return 1
  | "." => source inner args
  | "[" | "test" => test name args
  | "alias" => defineAliases args
  | "break" => do
    let n ← loopCount args
    setStatus 0
    if n = 0 then return 0 else throw (.breaking n)
  | "cd" | "chdir" => changeDirectory args
  | "continue" => do
    let n ← loopCount args
    setStatus 0
    if n = 0 then return 0 else throw (.continuing n)
  | "echo" => emit "echo" (echoed args) 0
  | "eval" => do
    let text := " ".intercalate args
    if text.toList.all fun c => c = ' ' || c = '\t' || c = '\n' then return 0
    inner.text tested text
    return (← get).status
  | "exec" => exec inner args
  | "exit" => do
    if let text :: _ := args then setStatus (← number text)
    throw .exit
  | "export" =>
    declare name (fun v => { v with exported := true }) Variable.exported args
  | "getopts" => getopts args
  | "kill" => killProcesses args
  | "local" => localize args
  | "printf" => printFormat args
  | "pwd" => do
    print ((← get).directory.path ++ "\n")
    return 0
  | "read" => readValues args
  | "readonly" => declare name (fun v => { v with fixed := true }) Variable.fixed args
  | "return" => do
    if let text :: _ := args then setStatus (← number text)
    throw .returning
  | "set" => do
    if args.isEmpty then return ← listVariables "" fun v => v.value.isSome
    let (rest,given) ← takeOptions (args.length + 1) args
    if given then modify fun p => { p with args := rest }
    return 0
  | "shift" => shift args
  | "times" => do
    print "0m0.00s 0m0.00s\n0m0.00s 0m0.00s\n"
    return 0
  | "trap" => setTraps args
  | "type" => describeAll false args
  | "ulimit" => do
    print "unlimited\n"
    return 0
  | "umask" => changeMask args
  | "unalias" => removeAliases args
  | "unset" => unset args
  | "wait" => awaitJobs args
  | _ => return 0

/-- Runs a command that is part of the language. A fault in it ends the script only if the command
is `special`. -/
def callBuiltin (inner : Inner) (tested special : Bool) (name : String) (args : List String) :
    Run Unit := do
  let before := (← get).builtin
  let restore : Run Unit := modify fun p => { p with builtin := before }
  modify fun p => { p with builtin := some name }
  tryCatch (do setStatus (← builtin inner tested name args)) fun l => do
    unless l = .fault && !special do
      restore
      throw l
  restore

def callLimit : Nat := 1000

def callFunction (inner : Inner) (tested : Bool) (body : Command) (args : List String) :
    Run Unit := do
  let p ← get
  if callLimit ≤ p.calls then
    fail ("Maximum function recursion depth (" ++ toString callLimit ++ ") reached")
  let restore : Run Unit := modify fun q => { q with
    args := p.args, calls := p.calls, loops := p.loops, optionOffset := p.optionOffset }
  set { p with args := args, calls := p.calls + 1, loops := 0 }
  tryCatch (inCall (inner.run tested body)) fun l => do
    unless l = .returning do
      restore
      throw l
  restore

/-- The arguments of a command; those that set variables are not cut where it is `declaring`. -/
def argumentsOf (inner : Inner) (declaring : Bool) (words : List Word) : Run (List String) := do
  let mut found := []
  for w in words do
    match if declaring then w.assignment? else none with
    | some (name,value) => found := found ++ [name ++ "=" ++ (← inner.assigned value)]
    | none => found := found ++ (← inner.fields w)
  return found

/-- A command and its arguments: the first word that comes to a field names it. -/
def commandOf (inner : Inner) : List Word → Run (List String)
  | [] => return []
  | w :: rest => do
    match ← inner.fields w with
    | [] => commandOf inner rest
    | name :: more =>
      if (← get).functions.contains name then
        return name :: more ++ (← argumentsOf inner false rest)
      else if name = "command" then return name :: more ++ (← commandOf inner rest)
      else
        let declaring := ["export","local","readonly"].contains name
        return name :: more ++ (← argumentsOf inner declaring rest)

/-- What is run when the word `command` and its options are left out of arguments, and whether they
were there. -/
def plainCommand : List String → List String × Bool
  | "command" :: "--" :: args => ((plainCommand args).1,true)
  | "command" :: "-p" :: args => ((plainCommand args).1,true)
  | "command" :: arg :: args =>
    if arg.startsWith "-" && arg ≠ "-" then ("command" :: arg :: args,true)
    else ((plainCommand (arg :: args)).1,true)
  | args => (args,false)

def callDescribe (args : List String) : Run Nat := do
  let (found,names) ← optionsOf "pvV" args
  match names with
  | [] => return 0
  | name :: _ => describe (!found.any (·.1 = 'V')) name

def call (inner : Inner) (tested : Bool) (args : List String) : Run Unit := do
  let (args,plain) := if (← get).functions.contains "command" then (args,false)
    else plainCommand args
  match args with
  | [] => setStatus 0
  | name :: rest =>
    let functions := (← get).functions
    match if plain then none else functions[name]? with
    | some body => callFunction inner tested body rest
    | none =>
      if name = "command" then
        modify fun p => { p with builtin := some name }
        tryCatch (do setStatus (← callDescribe rest)) fun l => do unless l = .fault do throw l
        modify fun p => { p with builtin := none }
      else if isBuiltin name then
        callBuiltin inner tested (specialBuiltins.contains name && !plain) name rest
      else external inner args

def trace (assignments : List (String × String)) (args : List String) (file? : Option Nat) :
    Run Unit := do
  if ← option 'x' then
    let mark := (← value? "PS4").getD ""
    let shown := assignments.map (fun (name,value) => name ++ "=" ++ value) ++ args
    if let some n := file? then
      let text := mark ++ " ".intercalate shown ++ "\n"
      modify fun p => { p with world := writeFile p.world n text }

def simple (inner : Inner) (tested : Bool) (line : Nat) (assignments : List (String × Word))
    (words : List Word) (redirections : List (Redirection Word)) : Run Unit := do
  modify fun p => { p with line := line, substituted := 0 }
  let args ← commandOf inner words
  let p ← get
  let errors := p.streams[2]?
  let name := args.headD ""
  let isFunction := p.functions.contains name
  let special := !isFunction && specialBuiltins.contains name
  let setAll (exported : Bool) : Run (List (String × String)) :=
    assignments.mapM fun (name,w) => do
      let value ← inner.assigned w
      if exported then hide name
      assign name value
      if exported then
        modify fun p => { p with
          vars := p.vars.modify name fun v => { v with exported := true } }
      return (name,value)
  let body : Run Unit := do
    if args.isEmpty || special then
      let made ← setAll false
      trace made args errors
      if args.isEmpty then setStatus (← get).substituted else call inner tested args
    else if assignments.isEmpty then
      trace [] args errors
      call inner tested args
    else inCall do
      let made ← setAll true
      trace made args errors
      call inner tested args
  if name = "exec" && !isFunction && args.length = 1 then
    let links ← redirections.mapM (Link.of inner)
    links.forM (Link.make inner)
    body
  else
    let _ ← redirected inner special redirections body

/-- Runs `body` as long as `test` leaves the status that `success` says, at most `n` times, where
`last` is the status of the last run. -/
def repeated (inner : Inner) (tested success : Bool) (test body : Command) : Nat → Nat → Run Unit
  | 0,last => setStatus last
  | n + 1,last => do
    let step : Run (Option Nat) := do
      inner.run true test
      if ((← get).status = 0) = success then
        inner.run tested body
        return some (← get).status
      else return none
    let result ← tryCatch (do return (← step,false)) fun
      | .breaking k => do
        if 1 < k then throw (.breaking (k - 1))
        return (some 0,true)
      | .continuing k => do
        if 1 < k then throw (.continuing (k - 1))
        return (some 0,false)
      | l => throw l
    match result with
    | (some status,false) => repeated inner tested success test body n status
    | (some status,true) => setStatus status
    | (none,_) => setStatus last

def forEach (inner : Inner) (tested : Bool) (name : String) (body : Command) :
    Nat → List String → Run Unit
  | last,[] => setStatus last
  | _,value :: rest => do
    assign name value
    let done ← tryCatch (do inner.run tested body; pure false) fun
      | .breaking k => do
        if 1 < k then throw (.breaking (k - 1))
        return true
      | .continuing k => do
        if 1 < k then throw (.continuing (k - 1))
        return false
      | l => throw l
    let status := (← get).status
    if done then setStatus status else forEach inner tested name body status rest

def inLoop (act : Run Unit) : Run Unit := do
  let loops := (← get).loops
  modify fun p => { p with loops := loops + 1 }
  let restore : Run Unit := modify fun p => { p with loops := loops }
  tryCatch act fun l => do
    restore
    throw l
  restore

def loopLimit : Nat := 10000000

def select (inner : Inner) (tested : Bool) (text : String) :
    List (List Word × Command) → Run Unit
  | [] => setStatus 0
  | (patterns,body) :: rest => do
    let mut found := false
    for w in patterns do
      unless found do
        found := isMatch (← inner.whole (← Inner.homed false w)) text
    if found then
      match body with
      | .nothing => setStatus 0
      | body => inner.run tested body
    else select inner tested text rest

/-- Runs the parts of a pipeline, each in a process of its own. -/
def pipeline (inner : Inner) (tested : Bool) (input? : Option Nat) : List Command → Run Unit
  | [] => return ()
  | c :: rest => do
    let output? ← if rest.isEmpty then pure none else do
      let (_,reader,writer) ← openPipe ""
      pure (some (reader,writer))
    let (status,signal?) ← forked do
      if let some n := input? then connect 0 n
      if let some (_,writer) := output? then connect 1 writer
      copy inner (inner.run tested c)
    reportKill signal?
    setStatus status
    pipeline inner tested (output?.map (·.1)) rest

/-- Starts a command beside the process. What it writes is held back until it is waited for. -/
def background (inner : Inner) (c : Command) : Run Unit := do
  let n ← newNumber
  let p ← get
  let files := (p.streams.toList.map (·.2)).eraseDups
  let held ← files.mapM fun file => do
    let (pipe,_,writer) ← openPipe ""
    pure (file,pipe,writer)
  let (status,_) ← forked do
    let input ← openFile ⟨.nothing,0,false,true,false⟩
    modify fun p => { p with streams := p.streams.map fun stream file =>
      if stream = 0 then input
      else ((held.find? (·.1 = file)).map (·.2.2)).getD file }
    copy inner (inner.run false c)
  modify fun p => { p with
    jobs := p.jobs ++ [⟨n,status,held.map fun (file,pipe,_) => (pipe,file)⟩]
    lastJob := some n }
  setStatus 0

/-- A command that was `tested`, or that succeeded, goes on; else the option for this may end the
script. -/
def checked (tested : Bool) (act : Run Unit) : Run Unit := do
  act
  if !tested && (← get).status ≠ 0 then
    if ← option 'e' then throw .exit

def command (inner : Inner) (tested : Bool) : Command → Run Unit
  | .nothing => return ()
  | .simple line assignments words redirections => do
    if ← option 'n' then return ()
    checked tested do
      simple inner tested line assignments words redirections
      deliver inner
  | .redirected line c redirections => do
    modify fun p => { p with line := line }
    unless ← redirected inner false redirections (inner.run tested c) do
      checked tested (return ())
  | .subshell line c redirections => checked tested do
    modify fun p => { p with line := line }
    let (status,signal?) ← forked <| copy inner do
      let links ← redirections.mapM (Link.of inner)
      links.forM (Link.make inner)
      inner.run tested c
    reportKill signal?
    setStatus status
    deliver inner
  | .background c => background inner c
  | .pipeline parts => checked tested do
    pipeline inner tested none parts
    deliver inner
  | .negated c => do
    inner.run true c
    setStatus (if (← get).status = 0 then 1 else 0)
  | .inOrder first second => do
    inner.run tested first
    inner.run tested second
  | .onSuccess first second => do
    inner.run true first
    if (← get).status = 0 then inner.run tested second
  | .onFailure first second => do
    inner.run true first
    if (← get).status ≠ 0 then inner.run tested second
  | .choice test yes no => do
    inner.run true test
    if (← get).status = 0 then inner.run tested yes
    else
      match no with
      | .nothing => setStatus 0
      | no => inner.run tested no
  | .loop success test body => inLoop (repeated inner tested success test body loopLimit 0)
  | .forEach line name words body => do
    modify fun p => { p with line := line }
    let values ← argumentsOf inner false words
    inLoop (forEach inner tested name body 0 values)
  | .select line word arms => do
    modify fun p => { p with line := line }
    let text := textOf (← inner.whole (← Inner.homed false word))
    select inner tested text arms
  | .define name body => do
    modify fun p => { p with functions := p.functions.insert name body }
    setStatus 0

/-- Reads the commands of a source and runs each before the next is read. -/
def runSource (inner : Inner) (tested : Bool) : Nat → Source → Run Unit
  | 0,_ => return ()
  | n + 1,s => do
    let p ← get
    match readNext { s with aliases := p.aliases, documents := p.documents } with
    | .error f => do
      set { p with line := f.line }
      fail f.text
    | .ok (none,_) => return ()
    | .ok (some c,s) => do
      set { p with documents := s.documents, reached := s.line }
      inner.run tested c
      runSource inner tested n s

def runText (inner : Inner) (tested : Bool) (text : String) : Run Unit :=
  runSource inner tested (text.length + 2) (.ofText text)

def firstVariables (p : Process) (given : List (String × String)) : Std.TreeMap String Variable :=
  let own := [("IFS"," \t\n"),("OPTIND","1"),
    ("PATH","/usr/local/sbin:/usr/local/bin:/usr/sbin:/usr/bin:/sbin:/bin"),("PPID","1"),
    ("PS1","# "),("PS2","> "),("PS4","+ "),("PWD",p.directory.path)]
  let vars := own.foldl (fun vs (name,value) =>
    vs.insert name ⟨some value,name = "PWD",false⟩) ∅
  given.foldl (fun vs (name,value) =>
    if isName name && !(["IFS","OPTIND","PPID","PWD"].contains name) then
      vs.insert name ⟨some value,true,false⟩
    else vs) vars

/-- Runs the program that reads scripts: a text among its arguments, a file, or its input. -/
def interpret (inner : Inner) (args : List String) : Run Unit := do
  let script (text : String) : Run Unit :=
    finishing inner (inner.text false (String.ofList (text.toList.filter (· ≠ '\x00'))))
  let given := args.takeWhile fun a =>
    (a.startsWith "-" || a.startsWith "+") && a ≠ "--" && a ≠ "-"
  let commandFlag := given.any fun a => a.startsWith "-" && a.contains 'c'
  let fromInput := given.any fun a => a.startsWith "-" && a.contains 's'
  let plain := args.map fun a =>
    if given.contains a then String.ofList (a.toList.filter (· ≠ 'c')) else a
  let (rest,_) ← takeOptions (args.length + 1) (if commandFlag then plain else args)
  if commandFlag then
    match rest with
    | [] => fail "-c requires an argument"
    | text :: rest => do
      if let name :: args := rest then modify fun p => { p with name := name, args := args }
      script text
  else if fromInput || rest.isEmpty then
    modify fun p => { p with args := rest }
    script (← readAll 0)
  else
    let path := rest.headD ""
    let p ← get
    match p.world.disk.read p.directory path with
    | .error e => fail (Link.refusal false path e)
    | .ok content => do
      set { p with name := path, args := rest.tail }
      script (Text.narrow content)

def withVariables (inner : Inner) (args : List String) : Run Unit := do
  let clean := args.head?.any fun a => a = "-i" || a = "-"
  if clean then modify fun p => { p with vars := ∅ }
  let args := if clean then args.tail else args
  let bindings := args.takeWhile fun a => a.contains '='
  for b in bindings do
    let (name,value?) := splitBinding b
    modify fun p => { p with vars := p.vars.insert name ⟨value?,true,false⟩ }
  let programOf? (name : String) : Run (Option String) := do
    if (← value? "PATH").isSome then return ← Script.programOf? name
    else return if name.contains '/' then name else some ("/bin/" ++ name)
  match args.drop bindings.length with
  | [] => setStatus (← Tool.printenv [])
  | name :: rest => do
    match ← programOf? name with
    | some path => do
      let p ← get
      let vars := (← exports).map fun (name,value) => name ++ "=" ++ value
      match Image.load p.world.disk p.directory path (name :: rest) vars with
      | .ok image => inner.start image.tool image.args
      | .error e => refuse name e
    | none => refuse name .notFound
where
  refuse (name : String) (e : IoError) : Run Unit := do
    Tool.complain ("'" ++ name ++ "': " ++ e.reason)
    setStatus (if e = .notFound then 127 else 126)

def startTool (inner : Inner) (tool : String) (args : List String) : Run Unit := do
  let vars ← exports
  let ignored := (← get).traps.filter (·.2 = "")
  let reads := ["bash","dash","sh"].contains tool
  modify fun p => { p with
    name := args.headD ""
    args := []
    vars := if reads then firstVariables p vars
      else vars.foldl (fun vs (name,value) => vs.insert name ⟨some value,true,false⟩) ∅
    functions := ∅
    aliases := []
    options := []
    traps := ignored
    status := 0
    line := 0
    reached := 1
    builtin := none
    loops := 0
    calls := 0
    hidden := []
    optionOffset := 0
    jobs := []
    lastJob := none }
  if reads then interpret inner args.tail
  else if tool = "env" then withVariables inner args.tail
  else
    match Tool.find? tool with
    | some run => setStatus (← run args.tail)
    | none => setStatus 0
  throw .exit

def inner : Nat → Inner
  | 0 =>
    { expand := fun _ _ => throw .exit
      run := fun _ _ => throw .exit
      text := fun _ _ => throw .exit
      start := fun _ _ => throw .exit }
  | n + 1 =>
    { expand := fun u w => (inner n).spans (copy (inner n)) u w
      run := fun tested c => command (inner n) tested c
      text := fun tested text => runText (inner n) tested text
      start := fun tool args => startTool (inner n) tool args }

end Script
end CommandShell
