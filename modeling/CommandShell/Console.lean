import CommandShell.Failure
import CommandShell.Text.Utf8

/-! The streams of a session.
While the output of a line is captured, output goes to the innermost capture and nowhere else. -/
namespace CommandShell

inductive Channel
  | output
  | errors
  deriving DecidableEq

structure Console where
  input : Bytes
  output : Bytes
  errors : Bytes
  /-- Errors go where output goes that is not captured. -/
  merged : Bool
  outputClosed : Bool
  errorsClosed : Bool
  /-- The outputs being captured, the innermost first. -/
  captures : List Bytes
  deriving DecidableEq

namespace Console

def opened (input : Bytes) : Console := ⟨input,[],[],false,false,false,[]⟩

instance : Inhabited Console := ⟨opened []⟩

/-- Writes to a stream. A closed stream takes nothing but the empty sequence. -/
def write (c : Console) (channel : Channel) (bytes : Bytes) : Except IoError Console :=
  match channel,c.captures with
  | .output,capture :: outer => .ok { c with captures := (capture ++ bytes) :: outer }
  | .output,[] =>
    if bytes = [] then .ok c
    else if c.outputClosed then .error .closed
    else .ok { c with output := c.output ++ bytes }
  | .errors,_ =>
    if bytes = [] then .ok c
    else if c.errorsClosed then .error .closed
    else if c.merged then .ok { c with output := c.output ++ bytes }
    else .ok { c with errors := c.errors ++ bytes }

def capture (c : Console) : Console := { c with captures := [] :: c.captures }

def release (c : Console) : Bytes × Console :=
  (c.captures.headD [],{ c with captures := c.captures.tail })

def take (c : Console) : Bytes × Bytes × Console :=
  (c.output,c.errors,{ c with output := [], errors := [] })

end Console
end CommandShell
