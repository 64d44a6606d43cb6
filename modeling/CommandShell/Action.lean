import CommandShell.Builtin
import CommandShell.External.Process
import CommandShell.Machine
import CommandShell.Probe
import CommandShell.Session.Run

/-! All that a registered command can do, and the engine that runs it. -/
namespace CommandShell

inductive Action
  | builtin (b : Builtin)
  | probe (p : Probe)
  | program (file : String)

namespace Action

def command : Action → Command Action
  | builtin b => b.command
  | probe p => p.command probe
  | program file => External.command file

def engine (m : Machine) : Engine Action := ⟨command,m.launch⟩

def depth : Nat := 20000

def reentry (m : Machine) : Reentry Action := (engine m).reentry depth

end Action
end CommandShell
