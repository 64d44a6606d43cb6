import CommandShell.Machine.Script.Source

/-! How scripts are read, one command after another. -/
namespace CommandShell
namespace Script

open Read

/-- Where letters stand. -/
inductive Setting
  | open
  | braced
  | quoted
  | quotedBraced
  /-- Between double quotes in such braces. -/
  | requoted
  | sum
  | document
  deriving DecidableEq

namespace Setting

def isQuoted : Setting → Bool
  | .open | braced => false
  | quoted | quotedBraced | requoted | sum | document => true

def escapes (s : Setting) (c : Char) : Bool :=
  match s with
  | .open | braced => true
  | quoted | sum => "\\\x60$\"".toList.contains c
  | quotedBraced | requoted => "\\\x60$\"\x7d".toList.contains c
  | document => "\\\x60$".toList.contains c

end Setting

def endsWord (c : Char) : Bool := " \t\n;&|<>()".toList.contains c

inductive Frame
  | script
  /-- Between two words of a command; there is at least one command. -/
  | block
  | substitution
  deriving DecidableEq

/-- A list of commands ends in front of these words. -/
def closers : List String := ["do","done","elif","else","esac","fi","then","\x7d"]

def Token.endsList : Token → Bool
  | .mark .closing | .mark .armEnd | .finish => true
  | t => t.keyword?.any closers.contains

def specialBuiltins : List String :=
  [".",":","break","continue","eval","exec","exit","export","local","readonly","return",
    "set","shift","times","trap","unset"]

/-- The form that stands behind the name of a parameter in braces, read up to its word. -/
def formOf (emptyToo : Bool) : Char → Option Form
  | '-' => some (.fallback emptyToo)
  | '=' => some (.assign emptyToo)
  | '?' => some (.demand emptyToo)
  | '+' => some (.replace emptyToo)
  | '\x7d' => some .plain
  | _ => none

structure Start where
  name : String
  form : Form
  hasWord : Bool

/-- Reads the form of the parameter `name`. A letter that begins no form is passed over. -/
def readForm (name : String) : Read Start := do
  let cut (c : Char) (front : Bool) : Read Start := do
    skip
    return ⟨name,.cut front (← accept c),true⟩
  match ← peekJoined with
  | some '%' => cut '%' false
  | some '#' => cut '#' true
  | some ':' =>
    skip
    let c ← peekJoined
    drop
    return ⟨name,(c.bind (formOf true)).getD .unknown,true⟩
  | c =>
    drop
    return ⟨name,(c.bind (formOf false)).getD .unknown,c ≠ some '\x7d'⟩

def readStart : Read Start := do
  let nameOf (c : Char) : Read String :=
    if isNameStart c then takeWhile isNameChar else takeWhile Char.isDigit
  match ← peekJoined with
  | none | some '\x7d' => return ⟨"",.unknown,true⟩
  | some c =>
    if isNameChar c then return ← readForm (← nameOf c)
    drop
    if c = '#' then
      match ← peekJoined with
      | none => return ⟨"#",.unknown,true⟩
      | some d =>
        if isNameChar d then
          let name ← nameOf d
          if ← accept '\x7d' then return ⟨name,.length,false⟩ else return ⟨name,.unknown,true⟩
        let s ← get
        drop
        if d ≠ '\x7d' ∧ (← accept '\x7d') then
          return ⟨String.singleton d,if isSpecialName d then .length else .unknown,false⟩
        set s
        readForm "#"
    else if isSpecialName c then readForm (String.singleton c)
    else return ⟨"",.unknown,true⟩

/-- The text of an old command substitution, up to the mark that ends it. -/
def readBackquoted (quoted : Bool) : Nat → List Char → Read (List Char)
  | 0,_ => fault "Syntax error: EOF in backquote substitution"
  | n + 1,taken => do
    match ← next with
    | none => fault "Syntax error: EOF in backquote substitution"
    | some '\x60' => return taken.reverse
    | some '\\' =>
      match ← next with
      | none => fault "Syntax error: EOF in backquote substitution"
      | some '\n' => readBackquoted quoted n taken
      | some c =>
        if "\\\x60$".toList.contains c || (quoted && c = '"') then
          readBackquoted quoted n (c :: taken)
        else readBackquoted quoted n (c :: '\\' :: taken)
    | some c => readBackquoted quoted n (c :: taken)

def unended (s : Setting) : Read Word := do
  let inText := (← get).behind.isSome
  match s with
  | .sum => fault "Syntax error: Missing '))'"
  | .quoted | .quotedBraced | .requoted =>
    if inText then fault "Syntax error: Missing '\x7d'"
    else fault "Syntax error: Unterminated quoted string"
  | _ => fault "Syntax error: Missing '\x7d'"

def readQuoted : Nat → Word → Read Word
  | 0,_ => fault "Syntax error: Unterminated quoted string"
  | n + 1,taken => do
    match ← next with
    | none => unended .quoted
    | some '\'' => return taken
    | some c => do
      if c = '\n' then startLine
      readQuoted n (.letter c true :: taken)

/-- All arguments and nothing else: these are no word if there are none. -/
def isAllArguments : Word → Bool
  | [.parameter "@" .plain [] true] => true
  | _ => false

def documentLines (a : Announced) : Nat → List Char → List Char → List Char × List Char
  | 0,taken,rest => (taken,rest)
  | _,taken,[] => (taken,[])
  | n + 1,taken,rest =>
    let rest := if a.tabs then rest.dropWhile (· = '\t') else rest
    let line := rest.takeWhile (· ≠ '\n')
    let after := rest.drop (line.length + 1)
    if String.ofList line = a.last then (taken,after)
    else documentLines a n (taken ++ rest.take (line.length + 1)) after

mutual

/-- Reads the pieces of a word, which are collected in reverse; with them goes how many brackets
are open. -/
def readPieces : Nat → Setting → Nat → Word → Read Word
  | 0,_,_,_ => fault "Syntax error: word too long"
  | n + 1,s,depth,taken => do
    match ← peek with
    | none =>
      match s with
      | .open | .document => return taken.reverse
      | s => unended s
    | some c =>
      if s = .open ∧ endsWord c then return taken.reverse
      skip
      match c with
      | '\\' =>
        match ← next with
        | none => readPieces n s depth (.letter '\\' true :: taken)
        | some '\n' => readPieces n s depth taken
        | some d =>
          if s.escapes d then readPieces n s depth (.letter d true :: taken)
          else readPieces n s depth (.letter d true :: .letter '\\' true :: taken)
      | '\n' => do
        startLine
        readPieces n s depth (.letter c s.isQuoted :: taken)
      | '$' => do
        if (← get).literal then return ← readPieces n s depth (.letter c s.isQuoted :: taken)
        let p ← readDollar n s
        readPieces n s depth (p :: taken)
      | '\x60' => do
        if (← get).literal then return ← readPieces n s depth (.letter c s.isQuoted :: taken)
        let text ← readBackquoted s.isQuoted n []
        -- Nothing is said about what stands behind the last command of the text.
        let c ← within text (readList n .substitution)
        readPieces n s depth (.command c s.isQuoted :: taken)
      | '\'' =>
        if s.isQuoted then readPieces n s depth (.letter c true :: taken)
        else do
          let taken ← readQuoted n (.mark :: taken)
          readPieces n s depth taken
      | '"' =>
        match s with
        | .quoted => return taken.reverse
        | .quotedBraced => readPieces n .requoted depth (.mark :: taken)
        | .requoted => readPieces n .quotedBraced depth (.mark :: taken)
        | .sum | .document => readPieces n s depth (.letter c true :: taken)
        | .open | .braced => do
          let inner ← readPieces n .quoted 0 []
          let inner := if isAllArguments inner then inner else .mark :: inner
          readPieces n s depth (inner.reverse ++ taken)
      | '\x7d' =>
        if s = .braced ∨ s = .quotedBraced then return taken.reverse
        else readPieces n s depth (.letter c s.isQuoted :: taken)
      | '(' => readPieces n s (depth + 1) (.letter c s.isQuoted :: taken)
      | ')' =>
        if s = .sum ∧ depth = 0 then
          if ← accept ')' then return taken.reverse
          else readPieces n s depth (.letter c true :: taken)
        else readPieces n s (depth - 1) (.letter c s.isQuoted :: taken)
      | c => readPieces n s depth (.letter c s.isQuoted :: taken)

def readDollar : Nat → Setting → Read Piece
  | 0,_ => fault "Syntax error: word too long"
  | n + 1,s => do
    match ← peekJoined with
    | some '(' =>
      skip
      if ← accept '(' then return .sum (← readPieces n .sum 0 []) s.isQuoted
      inside do
        let c ← readList n .substitution
        let t ← readToken n
        unless t matches .mark .closing do expected "\")\"" t.keyName
        return .command c s.isQuoted
    | some '\x7b' =>
      skip
      let p ← readStart
      let inner := match p.form with
        | .cut _ _ => .braced
        | _ => if s.isQuoted then Setting.quotedBraced else .braced
      let word ← if p.hasWord then readPieces n inner 0 [] else pure []
      return .parameter p.name p.form word s.isQuoted
    | some c =>
      if isNameStart c then
        return .parameter (← takeWhile isNameChar) .plain [] s.isQuoted
      else if isSpecialName c then
        skip
        return .parameter (String.singleton c) .plain [] s.isQuoted
      else return .letter '$' s.isQuoted
    | none => return .letter '$' s.isQuoted

def readDocuments : Nat → Read Unit
  | 0 => fault "Syntax error: text too long"
  | n + 1 => do
    let s ← get
    match s.announced with
    | [] => return ()
    | a :: more =>
      let w ← if a.verbatim then do
          let (text,rest) := documentLines a (s.rest.length + 1) [] s.rest
          set { s with
            rest := rest
            line := s.line + (s.rest.take (s.rest.length - rest.length)).count '\n' }
          pure (text.map fun c => Piece.letter c true)
        else do
          set { s with ending := some a, behind := none }
          startLine
          let w ← readPieces n .document 0 []
          modify fun t => { t with
            rest := t.behind.getD t.rest
            ending := none
            behind := none }
          pure w
      modify fun t => { t with
        announced := more
        documents := t.documents.setIfInBounds a.number w }
      readDocuments n

/-- Reads a token, but no target of a redirection. -/
def readToken : Nat → Read Token
  | 0 => fault "Syntax error: script too long"
  | n + 1 => do
    let s ← get
    if let some t := s.ahead then
      set { s with ahead := none }
      return t
    match ← peekJoined with
    | none => return .finish
    | some ' ' | some '\t' => do
      skip
      readToken n
    | some '#' => do
      let _ ← takeWhile (· ≠ '\n')
      readToken n
    | some '\n' => do
      skip
      readDocuments n
      return .mark .newline
    | some '&' => do
      skip
      return .mark (if ← accept '&' then .bothOf else .ampersand)
    | some '|' => do
      skip
      return .mark (if ← accept '|' then .eitherOf else .pipe)
    | some ';' => do
      skip
      return .mark (if ← accept ';' then .armEnd else .semicolon)
    | some '(' => do
      skip
      return .mark .opening
    | some ')' => do
      skip
      return .mark .closing
    | some _ => do
      let w ← readPieces n .open 0 []
      let stream? := match w with
        | [] => some none
        | [.letter d false] => if d.isDigit then some (some (d.toNat - '0'.toNat)) else none
        | _ => none
      match stream?,← peek with
      | some stream,some '<' => do
        skip
        if ← accept '<' then return .document (stream.getD 0) (← accept '-')
        if ← accept '&' then return .redirection (stream.getD 0) .duplicate
        if ← accept '>' then return .redirection (stream.getD 0) .update
        return .redirection (stream.getD 0) .input
      | some stream,some '>' => do
        skip
        if ← accept '>' then return .redirection (stream.getD 1) .append
        if ← accept '&' then return .redirection (stream.getD 1) .duplicate
        if ← accept '|' then return .redirection (stream.getD 1) (.output true)
        return .redirection (stream.getD 1) (.output false)
      | _,_ => return .word w

def readPastLines : Nat → Read Token
  | 0 => fault "Syntax error: script too long"
  | n + 1 => do
    match ← readToken n with
    | .mark .newline => readPastLines n
    | t => return t

/-- Reads a token where a command may begin, with the texts of aliases in their place. -/
def readAliased : Nat → Bool → Read Token
  | 0,_ => fault "Syntax error: script too long"
  | n + 1,pastLines => do
    let t ← if pastLines then readPastLines n else readToken n
    let s ← get
    match t with
    | .word w =>
      let inUse (name : String) : Bool :=
        s.expanding.any fun e => e.1 = name && e.2 < s.rest.length
      match w.bare?.bind fun name => s.aliases.find? fun a => a.1 = name && !inUse name with
      | some (name,text) =>
        if keywords.contains name then return t
        set { s with
          rest := text.toList ++ s.rest
          expanding := (name,s.rest.length) :: s.expanding }
        readAliased n pastLines
      | none => return t
    | t => return t

def readTarget : Nat → Token → Read (Option (Redirection Word))
  | 0,_ => fault "Syntax error: script too long"
  | n + 1,.redirection stream direction => do
    match ← readToken n with
    | .word w => return some ⟨stream,direction,w⟩
    | t => unexpected t.name
  | n + 1,.document stream tabs => do
    modify fun s => { s with literal := true }
    let t ← readToken n
    modify fun s => { s with literal := false }
    match t with
    | .word w => return some ⟨stream,.document (← announce w tabs),[]⟩
    | t => unexpected t.name
  | _,_ => return none

/-- Reads the redirections behind a command. A word behind them is no keyword. -/
def readRedirections : Nat → List (Redirection Word) → Read (List (Redirection Word))
  | 0,_ => fault "Syntax error: script too long"
  | n + 1,taken => do
    let t ← if taken.isEmpty then readAliased n false else readToken n
    match ← readTarget n t with
    | some r => readRedirections n (r :: taken)
    | none => do
      putBack (match t with
        | .word w => if taken.isEmpty then t else .word (.mark :: w)
        | t => t)
      return taken.reverse

/-- Reads commands, up to what they stand in ends. -/
def readList : Nat → Frame → Read Command
  | 0,_ => fault "Syntax error: script too long"
  | n + 1,frame => do
    let t ← readAliased n (frame ≠ .script)
    match t with
    | .finish => do
      putBack t
      return .nothing
    | .mark .newline => return .nothing
    | t => do
      putBack t
      if frame = .substitution ∧ t.endsList then return .nothing
      readMore n frame .nothing

def readMore : Nat → Frame → Command → Read Command
  | 0,_,_ => fault "Syntax error: script too long"
  | n + 1,frame,before => do
    let c ← readChain n
    let t ← readToken n
    let c := if t matches .mark .ampersand then .background c else c
    let all := if before matches .nothing then c else .inOrder before c
    match t with
    | .mark .newline | .mark .ampersand | .mark .semicolon => do
      if t matches .mark .newline then
        if frame = .script then return all
      let t ← readAliased n (frame ≠ .script)
      if frame = .script then
        if t matches .mark .newline then return all
        putBack t
        if t matches .finish then return all
      else
        putBack t
        if t.endsList then return all
      readMore n frame all
    | .finish => do
      putBack t
      return all
    | t => do
      if frame = .script then unexpected t.keyName
      putBack t
      return all

/-- Reads commands of which each runs after the success or the failure of those before it. -/
def readChain : Nat → Read Command
  | 0 => fault "Syntax error: script too long"
  | n + 1 => do
    let first ← readPipeline n
    readLinks n first

def readLinks : Nat → Command → Read Command
  | 0,_ => fault "Syntax error: script too long"
  | n + 1,first => do
    match ← readToken n with
    | .mark .bothOf => do
      putBack (← readAliased n true)
      let second ← readPipeline n
      readLinks n (.onSuccess first second)
    | .mark .eitherOf => do
      putBack (← readAliased n true)
      let second ← readPipeline n
      readLinks n (.onFailure first second)
    | t => do
      putBack t
      return first

def readPipeline : Nat → Read Command
  | 0 => fault "Syntax error: script too long"
  | n + 1 => do
    let t ← readToken n
    let negated := t.keyword? = some "!"
    if negated then putBack (← readAliased n false) else putBack t
    let parts ← readParts n []
    let c := match parts with
      | [c] => c
      | parts => .pipeline parts
    return if negated then .negated c else c

def readParts : Nat → List Command → Read (List Command)
  | 0,_ => fault "Syntax error: script too long"
  | n + 1,taken => do
    let c ← readCommand n
    match ← readToken n with
    | .mark .pipe => do
      putBack (← readAliased n true)
      readParts n (c :: taken)
    | t => do
      putBack t
      return (c :: taken).reverse

def readKeyword : Nat → Bool → String → Read Unit
  | 0,_,_ => fault "Syntax error: script too long"
  | n + 1,pastLines,text => do
    let t ← if pastLines then readAliased n true else readToken n
    unless t.keyword? = some text do expected ("\"" ++ text ++ "\"") t.keyName

def readCommand : Nat → Read Command
  | 0 => fault "Syntax error: script too long"
  | n + 1 => do
    let line := (← get).line
    let t ← readToken n
    let closed (c : Command) : Read Command := do
      match ← readRedirections n [] with
      | [] => return c
      | rs =>
        match c with
        | .subshell line c _ => return .subshell line c rs
        | c => return .redirected line c rs
    match t.keyword? with
    | some "if" => do
      let c ← readArms n
      closed c
    | some "while" => do
      let c ← readLoop n true
      closed c
    | some "until" => do
      let c ← readLoop n false
      closed c
    | some "for" => do
      let c ← readFor n line
      closed c
    | some "case" => do
      let c ← readSelect n line
      closed c
    | some "\x7b" => do
      let c ← readList n .block
      readKeyword n false "\x7d"
      closed c
    | some _ => unexpected t.keyName
    | none =>
      match t with
      | .mark .opening => do
        let c ← readList n .block
        match ← readToken n with
        | .mark .closing => closed (.subshell line c [])
        | t => expected "\")\"" t.keyName
      | .word _ | .redirection _ _ | .document _ _ => do
        putBack t
        let line := (← get).line
        readSimple n line [] [] []
      | t => unexpected t.keyName

def readArms : Nat → Read Command
  | 0 => fault "Syntax error: script too long"
  | n + 1 => do
    let test ← readList n .block
    readKeyword n false "then"
    let yes ← readList n .block
    let t ← readToken n
    match t.keyword? with
    | some "elif" => do
      let no ← readArms n
      return .choice test yes no
    | some "else" => do
      let no ← readList n .block
      readKeyword n false "fi"
      return .choice test yes no
    | some "fi" => return .choice test yes .nothing
    | _ => expected "\"fi\"" t.keyName

def readLoop : Nat → Bool → Read Command
  | 0,_ => fault "Syntax error: script too long"
  | n + 1,success => do
    let test ← readList n .block
    readKeyword n false "do"
    let body ← readList n .block
    readKeyword n false "done"
    return .loop success test body

def readFor : Nat → Nat → Read Command
  | 0,_ => fault "Syntax error: script too long"
  | n + 1,line => do
    let name ← match ← readToken n with
      | .word w =>
        match w.bare?.filter isName with
        | some name => pure name
        | none => fault "Syntax error: Bad for loop variable"
      | _ => fault "Syntax error: Bad for loop variable"
    let t ← readAliased n true
    let words ← if t.keyword? = some "in" then do
        let (words,t) ← readWords n []
        match t with
        | .mark .newline | .mark .semicolon => pure words
        | t => unexpected t.name
      else do
        unless t matches .mark .semicolon do putBack t
        pure [[.parameter "@" .plain [] true]]
    readKeyword n true "do"
    let body ← readList n .block
    readKeyword n false "done"
    return .forEach line name words body

def readWords : Nat → List Word → Read (List Word × Token)
  | 0,_ => fault "Syntax error: script too long"
  | n + 1,taken => do
    match ← readToken n with
    | .word w => readWords n (w :: taken)
    | t => return (taken.reverse,t)

def readSelect : Nat → Nat → Read Command
  | 0,_ => fault "Syntax error: script too long"
  | n + 1,line => do
    match ← readToken n with
    | .word w => do
      readKeyword n true "in"
      let t ← readPastLines n
      let arms ← readCases n t []
      return .select line w arms
    | t => expected "word" t.name

def readCases : Nat → Token → List (List Word × Command) → Read (List (List Word × Command))
  | 0,_,_ => fault "Syntax error: script too long"
  | n + 1,t,taken => do
    if t.keyword? = some "esac" then return taken.reverse
    let t ← if t matches .mark .opening then readToken n else pure t
    let patterns ← readPatterns n t []
    let body ← readList n .substitution
    let arms := (patterns,body) :: taken
    let t ← readPastLines n
    match t with
    | .mark .armEnd => do
      let t ← readPastLines n
      readCases n t arms
    | t =>
      if t.keyword? = some "esac" then return arms.reverse
      else expected "\";;\"" t.keyName

def readPatterns : Nat → Token → List Word → Read (List Word)
  | 0,_,_ => fault "Syntax error: script too long"
  | n + 1,t,taken => do
    let w : Word := match t with
      | .word w => w
      | _ => []
    match ← readToken n with
    | .mark .pipe => do
      let t ← readToken n
      readPatterns n t (w :: taken)
    | .mark .closing => return (w :: taken).reverse
    | t => expected "\")\"" t.name

def readSimple : Nat → Nat → List (String × Word) → List Word → List (Redirection Word) →
    Read Command
  | 0,_,_,_,_ => fault "Syntax error: script too long"
  | n + 1,line,assignments,words,redirections => do
    let t ← if words.isEmpty then readAliased n false else readToken n
    match t with
    | .word w =>
      match (if words.isEmpty then w.assignment? else none) with
      | some a => readSimple n line (a :: assignments) words redirections
      | none => readSimple n line assignments (w :: words) redirections
    | .redirection _ _ | .document _ _ => do
      match ← readTarget n t with
      | some r => readSimple n line assignments words (r :: redirections)
      | none => readSimple n line assignments words redirections
    | t =>
      let named := assignments.isEmpty && redirections.isEmpty
      match t,words,named with
      | .mark .opening,[w],true => readFunction n w
      | t,words,_ => do
        putBack t
        return .simple line assignments.reverse words.reverse redirections.reverse

def readFunction : Nat → Word → Read Command
  | 0,_ => fault "Syntax error: script too long"
  | n + 1,w => do
    match ← readToken n with
    | .mark .closing =>
      match w.bare?.filter fun name => isName name && !specialBuiltins.contains name with
      | some name => do
        putBack (← readAliased n true)
        let body ← readCommand n
        return .define name body
      | none => fault "Syntax error: Bad function name"
    | t => expected "\")\"" t.name

end

def readNext : Read (Option Command) := do
  modify fun s => { s with announced := [], ahead := none }
  let c ← readList (20 * ((← get).rest.length + 1000)) .script
  if (← get).ahead matches some .finish then
    return if c matches .nothing then none else some c
  return some c

end Script
end CommandShell
