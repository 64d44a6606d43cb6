/-! Arguments bound to the options and positions that a command declares.
Words are taken from left to right. A double dash ends the options, and so does the first word that
a position takes which takes all that follows. -/
namespace CommandShell

structure Flag where
  names : List String
  /-- The key under which it is bound. -/
  key : String
  /-- Says what is wrong with a value; nothing here means that no value is taken. -/
  value : Option (String → Option String)

inductive Arity
  | required
  | optional
  /-- Takes all words from here on. -/
  | rest
  deriving DecidableEq

structure Position where
  name : String
  arity : Arity
  /-- Says what is wrong with a word. -/
  check : String → Option String

structure Signature where
  flags : List Flag
  positions : List Position

namespace Arguments

inductive Fault
  | unrecognized (arg : String)
  | noValue (option : String)
  | badOption (option value reason : String)
  | badPosition (name value reason : String)
  | afterHelp
  | missing (names : List String)
  deriving DecidableEq

def Fault.message : Fault → String
  | unrecognized arg => "Unrecognized argument: " ++ arg ++ "\n"
  | noValue option => "No value provided for option '" ++ option ++ "'.\n"
  | badOption option value reason =>
    "Error parsing option '" ++ option ++ "' with value '" ++ value ++ "': " ++ reason ++ "\n"
  | badPosition name value reason =>
    "Error parsing positional argument '" ++ name ++ "' with value '" ++ value ++ "': " ++ reason ++
      "\n"
  | afterHelp => "Trailing arguments are not allowed after `help`."
  | missing names =>
    "Required positional arguments not provided:" ++ String.join (names.map ("\n    " ++ ·)) ++ "\n"

structure Bound where
  flags : List (String × String)
  words : List String
  deriving DecidableEq

namespace Bound

def has (b : Bound) (key : String) : Bool := b.flags.any (·.1 = key)

def value? (b : Bound) (key : String) : Option String :=
  (b.flags.find? (·.1 = key)).map (·.2)

end Bound

inductive Outcome
  | help
  | bound (b : Bound)
  deriving DecidableEq

structure Progress where
  bound : Bound
  help : Bool
  /-- No word is a flag any more. -/
  ended : Bool
  vacant : List Position

namespace Progress

def start (s : Signature) : Progress := ⟨⟨[],[]⟩,false,false,s.positions⟩

def bind (p : Progress) (key value : String) : Progress :=
  { p with bound := { p.bound with flags := p.bound.flags ++ [(key,value)] } }

/-- Puts a word into the first vacant position. One that takes all that follows stays vacant. -/
def place (p : Progress) (word : String) : Except Fault Progress :=
  match p.vacant with
  | [] => .error (.unrecognized word)
  | position :: vacant =>
    match position.check word with
    | some reason => .error (.badPosition position.name word reason)
    | none =>
      let bound := { p.bound with words := p.bound.words ++ [word] }
      if position.arity = .rest then .ok { p with bound := bound, ended := true }
      else .ok { p with bound := bound, vacant := vacant }

/-- What has come of the words when none are left. A request for help stands above what is
missing. -/
def finish (p : Progress) : Except Fault Outcome :=
  if p.help then .ok .help
  else match p.vacant.filter (·.arity = .required) with
    | [] => .ok (.bound p.bound)
    | missing => .error (.missing (missing.map (·.name)))

end Progress

def isHelp (word : String) : Bool := word = "--help" || word = "help"

/-- Takes the words one by one. The word behind a flag with a value is that value, whatever it
looks like. -/
def take (s : Signature) (p : Progress) : List String → Except Fault Outcome
  | [] => p.finish
  | word :: rest =>
    if p.ended then do take s (← p.place word) rest
    else if isHelp word then take s { p with help := true } rest
    else if word = "--" then take s { p with ended := true } rest
    else if !word.startsWith "-" then do take s (← p.place word) rest
    else if p.help then .error .afterHelp
    else match s.flags.find? (·.names.contains word) with
      | none => .error (.unrecognized word)
      | some flag =>
        match flag.value,rest with
        | none,rest => take s (p.bind flag.key "") rest
        | some _,[] => .error (.noValue word)
        | some check,value :: rest =>
          if p.bound.has flag.key then
            .error (.badOption word value "duplicate values provided")
          else match check value with
            | some reason => .error (.badOption word value reason)
            | none => take s (p.bind flag.key value) rest

def parse (s : Signature) (words : List String) : Except Fault Outcome :=
  take s (.start s) words

def anything (_ : String) : Option String := none

end Arguments
end CommandShell
