import Std.Data.TreeSet
import CommandShell.Registry

/-! Completion of command names.
The index follows a registry as the namespace does, and answers with full paths and with last
segments. -/
namespace CommandShell

structure Completion where
  paths : Std.TreeSet String
  subscription : SubscriptionId

namespace Completion

variable {κ : Type}

def record (paths : Std.TreeSet String) : Event κ → Std.TreeSet String
  | .added r => paths.insert r.path.text
  | .removed path => paths.erase path.text

def sync (c : Completion) (r : Registry κ) : Completion × Registry κ :=
  let (events,r) := r.drain c.subscription
  ({ c with paths := events.foldl record c.paths },r)

def attach (r : Registry κ) : Completion × Registry κ :=
  let (id,r) := r.subscribe
  (⟨∅,id⟩,r)

def simpleName (path : String) : String :=
  String.ofList ((path.toList.splitOn '/').getLast?.getD [])

/-- The paths and simple names that begin with `start`, in order and each once. -/
def complete (c : Completion) (start : String) : List String :=
  let names := c.paths.toList.flatMap fun path => [path,simpleName path]
  (Std.TreeSet.ofList (names.filter (·.startsWith start))).toList

end Completion
end CommandShell
