import Std.Data.TreeMap
import CommandShell.Descriptor
import CommandShell.Path.Segment

/-! The registered commands, by the text of their paths.
Every change is passed on, in order, to the queue of each subscriber; a new queue starts with the
commands that are there already. -/
namespace CommandShell

inductive RegistryError
  | duplicateCommand (name : String)
  | noSuchCommand (name : String)
  | invalidName (name : String)
  /-- The name lies below a command, or commands lie below it. -/
  | pathConflict (name existing : String)
  deriving DecidableEq

def RegistryError.message : RegistryError → String
  | .duplicateCommand name => "command already registered: " ++ name
  | .noSuchCommand name => "no such command: " ++ name
  | .invalidName name => "invalid command name: " ++ Text.quoted name
  | .pathConflict name existing => name ++ " conflicts with registered command " ++ existing

/-- A descriptor as it was registered. The serial number tells it from all others, also from those
of the same name. -/
structure Registered (κ : Type) where
  serial : Nat
  descriptor : Descriptor κ

namespace Registered

variable {κ : Type}

def path (r : Registered κ) : Path := r.descriptor.name

def same (r s : Registered κ) : Bool := r.serial = s.serial

end Registered

inductive Event (κ : Type)
  | added (r : Registered κ)
  | removed (path : Path)

abbrev SubscriptionId := Nat

structure Registry (κ : Type) where
  commands : Std.TreeMap String (Registered κ)
  /-- The events that each subscriber has not taken yet, oldest first. -/
  queues : Std.TreeMap SubscriptionId (List (Event κ))
  nextSerial : Nat
  nextSubscription : SubscriptionId

namespace Registry

variable {κ : Type}

def empty : Registry κ := ⟨∅,∅,0,0⟩

instance : Inhabited (Registry κ) := ⟨empty⟩

/-- The text under which a command of this name is kept. -/
def canonical? (name : String) : Option String :=
  match Path.parse name with
  | .ok p => some p.fromRoot.text
  | .error _ => none

def isValidName (p : Path) : Bool := p.segments ≠ [] && p.segments.all Segment.isValid

def groupsAbove (p : Path) : List Path :=
  (List.range (p.segments.length - 1)).map fun n => ⟨true,p.segments.take (n + 1)⟩

/-- The first command above `p`, else the first one below it. In the order of names whatever lies
below a group follows the text of the group and a slash. -/
def conflict? (r : Registry κ) (p : Path) : Option String :=
  match (groupsAbove p).find? (fun q => r.commands.contains q.text) with
  | some q => some q.text
  | none =>
    let below := p.text ++ "/"
    match r.commands.keys.find? (fun key => below ≤ key) with
    | some key => if key.startsWith below then some key else none
    | none => none

def publish (r : Registry κ) (e : Event κ) : Registry κ :=
  { r with queues := r.queues.map fun _ queue => queue ++ [e] }

def register (r : Registry κ) (d : Descriptor κ) :
    Except RegistryError (Registered κ × Registry κ) :=
  let key := d.name.text
  if !isValidName d.name then .error (.invalidName key)
  else if r.commands.contains key then .error (.duplicateCommand key)
  else match r.conflict? d.name with
    | some existing => .error (.pathConflict key existing)
    | none =>
      let entry : Registered κ := ⟨r.nextSerial,d⟩
      .ok (entry,{ r with
        commands := r.commands.insert key entry
        nextSerial := r.nextSerial + 1 }.publish (.added entry))

def unregister (r : Registry κ) (name : String) :
    Except RegistryError (Registered κ × Registry κ) :=
  match canonical? name with
  | none => .error (.noSuchCommand name)
  | some key =>
    match r.commands[key]? with
    | none => .error (.noSuchCommand key)
    | some entry =>
      .ok (entry,{ r with commands := r.commands.erase key }.publish (.removed entry.path))

def get? (r : Registry κ) (name : String) : Option (Registered κ) :=
  (canonical? name).bind fun key => r.commands[key]?

def contains (r : Registry κ) (name : String) : Bool := (r.get? name).isSome

def toList (r : Registry κ) : List (Registered κ) := r.commands.values

def size (r : Registry κ) : Nat := r.commands.size

/-- Opens a queue that holds one event for each command that is registered. -/
def subscribe (r : Registry κ) : SubscriptionId × Registry κ :=
  (r.nextSubscription,{ r with
    queues := r.queues.insert r.nextSubscription (r.toList.map .added)
    nextSubscription := r.nextSubscription + 1 })

def next (r : Registry κ) (id : SubscriptionId) : Option (Event κ) × Registry κ :=
  match r.queues[id]? with
  | some (e :: queue) => (some e,{ r with queues := r.queues.insert id queue })
  | _ => (none,r)

/-- The events of a queue that have not been taken yet; none are left in it. -/
def drain (r : Registry κ) (id : SubscriptionId) : List (Event κ) × Registry κ :=
  match r.queues[id]? with
  | some queue => (queue,{ r with queues := r.queues.insert id [] })
  | none => ([],r)

def drop (r : Registry κ) (id : SubscriptionId) : Registry κ :=
  { r with queues := r.queues.erase id }

end Registry
end CommandShell
