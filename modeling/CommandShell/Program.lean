import CommandShell.Console
import CommandShell.Resolution
import CommandShell.Value

/-! What a command does, as a tree of requests to the session that runs it.
A program says what it asks for and how it goes on with each answer; it is done, or it fails. -/
namespace CommandShell

structure Ended where
  status : Int32
  output : Bytes
  errors : Bytes
  deriving DecidableEq

inductive Request (κ : Type)
  | readAll
  | readByte
  | write (channel : Channel) (bytes : Bytes)
  | environment
  | setEnvironment (e : Environment)
  | aliases
  | setAliases (t : AliasTable)
  | execute (line : String)
  | run (path : String) (args : List String)
  | executeAlias (name line : String)
  | resolve (name : String)
  | tree
  | commands
  | register (d : Descriptor κ)
  | unregister (name : String)
  | launch (file : String) (args : List String) (bindings : List (String × String))

def Request.Answer {κ : Type} : Request κ → Type
  | readAll => Bytes
  | readByte => Option UInt8
  | write _ _ => Except IoError Unit
  | environment => Environment
  | setEnvironment _ => Unit
  | aliases => AliasTable
  | setAliases _ => Unit
  | execute _ => Except ShellError (Option Value)
  | run _ _ => Except ShellError Value
  | executeAlias _ _ => Except ShellError (Option Value)
  | resolve _ => Except ShellError (Resolution κ)
  | tree => Tree (Registered κ)
  | commands => List (Registered κ)
  | register _ => Except RegistryError (Registered κ)
  | unregister _ => Except RegistryError (Registered κ)
  | launch _ _ _ => Except IoError Ended

inductive Program (κ α : Type)
  | done (a : α)
  | fail (f : Failure)
  | ask (r : Request κ) (next : r.Answer → Program κ α)

namespace Program

variable {κ α β : Type}

def bind : Program κ α → (α → Program κ β) → Program κ β
  | done a,k => k a
  | fail f,_ => fail f
  | ask r next,k => ask r fun answer => (next answer).bind k

instance : Monad (Program κ) where
  pure := done
  bind := bind

def ofExcept {ε : Type} (failure : ε → Failure) : Except ε α → Program κ α
  | .ok a => done a
  | .error e => fail (failure e)

def writeBytes (channel : Channel) (bytes : Bytes) : Program κ Unit :=
  ask (.write channel bytes) (ofExcept .io)

def write (text : String) : Program κ Unit := writeBytes .output (Text.encode text)

def writeLine (text : String) : Program κ Unit := write (text ++ "\n")

def setVariable (name value : String) : Program κ Unit :=
  ask .environment fun e => ask (.setEnvironment (e.set name value)) done

def removeVariable (name : String) : Program κ Unit :=
  ask .environment fun e => ask (.setEnvironment (e.remove name)) done

end Program
end CommandShell
