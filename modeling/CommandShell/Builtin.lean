import CommandShell.Builtin.Signature
import CommandShell.Command
import CommandShell.Kernel
import CommandShell.Path.Segment
import CommandShell.Pattern.Meaning

/-! The commands that every shell has: what they do. -/
namespace CommandShell
namespace Builtin

variable {κ : Type}

open Arguments Program

def echoBody (b : Bound) : Program κ Value := do
  write (" ".intercalate b.words ++ if b.has "no-newline" then "" else "\n")
  return .null

def exitBody (b : Bound) : Program κ Value :=
  match b.words.head?.map status with
  | some (.ok code) => fail (.exit (Int32.ofInt code))
  | _ => fail (.exit 0)

def listAliases : List (String × String) → Program κ Value
  | [] => return .null
  | (name,text) :: rest => do
    writeLine (name ++ "='" ++ text ++ "'")
    listAliases rest

def defineAlias (name text : String) : Program κ Value :=
  if Segment.isValid name then
    ask .aliases fun t => ask (.setAliases (t.define name text)) fun _ => done .null
  else fail (.shell (.usage ⟨"alias","invalid alias name " ++ Text.quoted name⟩))

/-- Without arguments all aliases are listed, and with one name that one is. An equals sign in the
first argument parts the name from the text, otherwise the text is the other arguments. -/
def aliasBody : List String → Program κ Value
  | [] => ask .aliases fun t => listAliases t.toList
  | first :: rest =>
    match first.toList.splitOn '=',rest with
    | name :: value :: more,rest =>
      defineAlias (String.ofList name)
        (" ".intercalate (String.ofList (['='].intercalate (value :: more)) :: rest))
    | _,[] => ask .aliases fun t =>
      match t.get? first with
      | some text => listAliases [(first,text)]
      | none => fail (.shell (.noSuchAlias first))
    | _,rest => defineAlias first (" ".intercalate rest)

def unaliasBody (name : String) : Program κ Value :=
  ask .aliases fun t =>
    match t.get? name with
    | some _ => ask (.setAliases (t.remove name)) fun _ => done .null
    | none => fail (.shell (.noSuchAlias name))

def listVariables : List (String × String) → Program κ Value
  | [] => return .null
  | (name,value) :: rest => do
    writeLine (name ++ "=" ++ value)
    listVariables rest

def setBody (b : Bound) : Program κ Value :=
  match b.words with
  | [] => ask .environment fun e => listVariables e.toList
  | name :: value => do
    setVariable name (" ".intercalate value)
    return .null

def unsetBody (name : String) : Program κ Value := do
  removeVariable name
  return .null

/-- The path of the group that `target` names as seen from the current group. -/
def locateGroup (target : String) : Program κ Path :=
  match Path.parse target with
  | .error e => fail (.context "empty group name" (.message e.message))
  | .ok p => ask .environment fun e => ask .tree fun t =>
    match t.find? Tree.rootId (e.currentGroup.join p).normalize with
    | none => fail (.message ("no such group: " ++ target))
    | some id =>
      if t.isGroup id then done (t.fullPath id)
      else fail (.message ("not a group: " ++ target))

def cdBody (b : Bound) : Program κ Value := do
  let group ← match b.words.head? with
    | none | some "" => pure Path.root
    | some target => locateGroup target
  ask .environment fun e => ask (.setEnvironment (e.setCurrentGroup group)) fun _ => done .null

def pwdBody : Program κ Value := ask .environment fun e => done (.str e.currentGroup.text)

def listing (t : Tree (Registered κ)) (id : NodeId) (keep : String → Bool) : List Value :=
  let children := ((t.node? id).map (·.children.toList)).getD []
  (children.filter fun c => keep c.1).map fun c =>
    .str (if t.isGroup c.2 then c.1 ++ "/" else c.1)

def readPattern (text : String) : Program κ Pattern :=
  match Pattern.parse text with
  | .ok p => done p
  | .error e => fail (.context "ls: invalid pattern" (.message (Pattern.Rejection.message text e)))

def lsBody (b : Bound) : Program κ Value := do
  let pattern ← match b.value? "match" with
    | none => pure none
    | some text => some <$> readPattern text
  let group ← match b.words.head? with
    | some target => locateGroup target
    | none => ask .environment fun e => done e.currentGroup
  ask .tree fun t =>
    match t.find? Tree.rootId group with
    | none => fail (.message ("no such group: " ++ group.text))
    | some id => done (.list (listing t id fun name => pattern.all (·.isMatch name)))

def whichBody (name : String) : Program κ Value := do
  let r ← ask (.resolve name) (ofExcept .shell)
  return .str <| match r with
    | .aliased a => a.name ++ ": alias for '" ++ a.text ++ "'"
    | .command path _ => path.text
    | .group path => path.text ++ "/"

def helpLine (width : Nat) (r : Registered κ) : String :=
  let name := r.path.text
  match r.descriptor.description with
  | some text => name ++ String.ofList (List.replicate (width - name.length) ' ') ++ "  " ++ text
  | none => name

def helpLines (width : Nat) : List (Registered κ) → Program κ Value
  | [] => return .null
  | r :: rest => do
    writeLine (helpLine width r)
    helpLines width rest

def helpBody : Program κ Value :=
  ask .commands fun rs =>
    helpLines (rs.foldl (fun width r => max width r.path.text.utf8ByteSize) 0) rs

def body (b : Builtin) (bound : Bound) : Program κ Value :=
  let first := bound.words.headD ""
  match b with
  | echo => echoBody bound
  | exit => exitBody bound
  | aliases => aliasBody bound.words
  | unalias => unaliasBody first
  | set => setBody bound
  | unset => unsetBody first
  | cd => cdBody bound
  | pwd => pwdBody
  | ls => lsBody bound
  | which => whichBody first
  | help => helpBody

/-- The texts of aliases often hold flags, so `alias` takes its arguments as they are. -/
def takesVerbatim (b : Builtin) : Bool := b = aliases

def bind (b : Builtin) (args : List String) : Except UsageError (Binding κ) :=
  match parse b.signature args with
  | .ok .help => .ok (.help b.usage.text)
  | .ok (.bound bound) => .ok (.ready fun _ => b.body bound)
  | .error fault => .error ⟨b.name,Text.trimmedEnd fault.message⟩

def command (b : Builtin) : Command κ where
  bind := b.bind
  verbatim i := b.body ⟨[],i.args⟩

def descriptor (action : Builtin → κ) (b : Builtin) : Descriptor κ :=
  { Descriptor.named b.name (action b) with
    description := some b.description
    verbatim := b.takesVerbatim }

end Builtin

/-- A kernel with every built-in command. None of them is refused. -/
def Kernel.withBuiltins {κ : Type} (action : Builtin → κ) : Kernel κ :=
  Builtin.all.foldl (fun k b =>
    match k.register (b.descriptor action) with
    | .ok (_,k) => k
    | .error _ => k) Kernel.empty

end CommandShell
