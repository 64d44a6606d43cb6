import CommandShell.External
import CommandShell.Machine.Script.Run
import CommandShell.Machine.Variables
import CommandShell.Program

/-! A machine that runs programs on a disk.
It tells which programs a search finds, and starts them. -/
namespace CommandShell

namespace Disk

def working : Place := ["tmp","work"]

/-- The tools that every machine has: those that read scripts, and small ones. -/
def toolNames : List String := ["bash","dash","env","sh"] ++ Script.Tool.all.map (·.1)

def standard : Disk :=
  let made := [working,["etc"],["home"],["root"],["var"],["usr","local","bin"]].foldl
    makeDirectory empty
  let withTools := toolNames.foldl (fun d name =>
    (d.put ["bin",name] (.tool name)).put ["usr","bin",name] (.tool name)) made
  withTools.put ["dev","null"] .sink

instance : Inhabited Disk := ⟨standard⟩

def placeOf (path : String) : Place := working ++ components (Text.narrowed path)

def contentOf (d : Disk) (path : String) : Except IoError Bytes :=
  d.read working (Text.narrowed path)

def directory (d : Disk) (path : String) : Directory where
  path := path
  entries := match d.find working (Text.narrowed path) with
    | .ok (place,.directory) =>
      some ((d.children place).map fun c => ⟨Text.bytes c.1,c.2.isExecutable⟩)
    | _ => none

def programs (d : Disk) (paths : String) : Programs :=
  Programs.scan ((searchDirectories paths).map d.directory)

end Disk

structure Machine where
  environment : List (String × String)
  deriving Inhabited

namespace Machine

def holdsZero (text : String) : Bool := text.toList.contains '\x00'

def depth : Nat := 100000

/-- Runs a file with arguments, and with variables on top of those of the machine. What it does to
the disk remains. -/
def launch (m : Machine) (file : String) (args : List String) (bindings : List (String × String))
    (d : Disk) : Except IoError (Ended × Disk) := do
  if args.any holdsZero || bindings.any fun v => holdsZero v.1 || holdsZero v.2 then
    throw .zeroByte
  let path := Text.narrowed file
  let texts := (Variables.merged m.environment bindings).map Text.narrowed
  let image ← Image.load d Disk.working path (path :: args.map Text.narrowed) texts
  let first := Script.Process.first d Disk.working texts
  let (result,last) := ((Script.inner depth).start image.tool image.args).run first |>.run
  let status := match result with
    | .error (.killed signal) => 128 + signal
    | _ => last.status
  let written (n : Nat) : Bytes := Text.bytes (last.world.pipes[n]?.getD "")
  return (⟨Int32.ofNat status,written 0,written 1⟩,last.world.disk)

end Machine
end CommandShell
