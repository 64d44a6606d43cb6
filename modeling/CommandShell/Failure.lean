import CommandShell.Registry
import CommandShell.Text.Quoted
import CommandShell.Token

/-! What can go wrong, cause by cause.
A line fails with a `ShellError`; the body of a command fails with a `Failure`, which may hold a
`ShellError` that a line run by it came to. `chain` lists a message and those of its sources. -/
namespace CommandShell

structure UsageError where
  command : String
  text : String
  deriving DecidableEq

def UsageError.message (e : UsageError) : String := e.command ++ ": " ++ e.text

inductive IoError
  | closed
  | notText
  /-- A text for a process holds the byte that ends texts there. -/
  | zeroByte
  | notFound
  /-- More is passed to a process than there is room for. -/
  | tooMuch
  | notProgram
  | denied
  | occupied
  | notDirectory
  | isDirectory
  | nameTooLong
  | notEmpty
  /-- An interpreter needs an interpreter, and so on. -/
  | tooDeep
  deriving DecidableEq

namespace IoError

def reason : IoError → String
  | closed => "closed"
  | notText => "stream did not contain valid UTF-8"
  | zeroByte => "nul byte found in provided data"
  | notFound => "No such file or directory"
  | tooMuch => "Argument list too long"
  | notProgram => "Exec format error"
  | denied => "Permission denied"
  | occupied => "File exists"
  | notDirectory => "Not a directory"
  | isDirectory => "Is a directory"
  | nameTooLong => "File name too long"
  | notEmpty => "Directory not empty"
  | tooDeep => "Too many levels of symbolic links"

def number? : IoError → Option Nat
  | closed | notText | zeroByte => none
  | notFound => some 2
  | tooMuch => some 7
  | notProgram => some 8
  | denied => some 13
  | occupied => some 17
  | notDirectory => some 20
  | isDirectory => some 21
  | nameTooLong => some 36
  | notEmpty => some 39
  | tooDeep => some 40

def message (e : IoError) : String :=
  match e.number? with
  | some n => e.reason ++ " (os error " ++ toString n ++ ")"
  | none => e.reason

end IoError

mutual

inductive ShellError
  | commandNotFound (name : String)
  | isAGroup (path : String)
  | noSuchAlias (name : String)
  | usage (e : UsageError)
  | registry (e : RegistryError)
  | unfinished (e : Unfinished)
  | evaluation (fragment : String) (source : Failure)
  | execution (path : String) (args : List String) (source : Failure)
  | aliasDepthExceeded (name : String) (limit : Nat)
  /-- No failure: the session is to end. -/
  | exit (code : Int32)
  | io (e : IoError)

inductive Failure
  | message (text : String)
  | io (e : IoError)
  | shell (e : ShellError)
  | exit (code : Int32)
  | context (text : String) (inner : Failure)

end

def exitMessage (code : Int32) : String := "exit requested with status " ++ toString code.toInt

mutual

def ShellError.message : ShellError → String
  | .commandNotFound name => "command not found: " ++ name
  | .isAGroup path => path ++ ": is a group"
  | .noSuchAlias name => "no such alias: " ++ name
  | .usage e => e.message
  | .registry e => e.message
  | .unfinished e => "syntax error: " ++ e.message
  | .evaluation fragment source => "cannot evaluate `" ++ fragment ++ "`: " ++ source.text
  | .execution path args source =>
    path ++ ": " ++ source.text ++ " (args: " ++ Text.quotedList args ++ ")"
  | .aliasDepthExceeded name limit =>
    "alias `" ++ name ++ "` nested more than " ++ toString limit ++ " levels deep"
  | .exit code => exitMessage code
  | .io e => "i/o error: " ++ e.message

def Failure.text : Failure → String
  | .message text => text
  | .io e => e.message
  | .shell e => e.message
  | .exit code => exitMessage code
  | .context text _ => text

end

mutual

/-- The message and those of its sources, also where the message holds its source already. -/
def ShellError.chain : ShellError → List String
  | .unfinished e => [(ShellError.unfinished e).message,e.message]
  | .io e => [(ShellError.io e).message,e.message]
  | .evaluation fragment source => (ShellError.evaluation fragment source).message :: source.chain
  | .execution path args source => (ShellError.execution path args source).message :: source.chain
  | e => [e.message]

def Failure.chain : Failure → List String
  | .message text => [text]
  | .io e => [e.message]
  | .shell e => e.chain
  | .exit code => [exitMessage code]
  | .context text inner => text :: inner.chain

end

namespace ShellError

/-- The error leaves the session as it is and only fails its statement. -/
def isRecoverable : ShellError → Bool
  | commandNotFound _ | isAGroup _ | noSuchAlias _ | usage _ => true
  | _ => false

def exitCode? : ShellError → Option Int32
  | exit code => some code
  | _ => none

end ShellError

namespace Failure

/-- A failure without the contexts around it. -/
def origin : Failure → Failure
  | context _ inner => inner.origin
  | f => f

/-- What the failure of the command at `path` is to a line: the error that a nested line came to
and a request to exit pass through, all else is a failed execution. -/
def raise (f : Failure) (path : String) (args : List String) : ShellError :=
  match f.origin with
  | shell e => e
  | exit code => .exit code
  | _ => .execution path args f

end Failure
end CommandShell
