import CommandShell.Arguments
import CommandShell.Arguments.Usage
import CommandShell.Text.Integer

/-! How the program itself is called. -/
namespace CommandShell

structure Options where
  /-- A line to be run instead of those that are typed. -/
  line : Option String
  /-- A file that is run before anything else. -/
  startup : Option String
  /-- Recoverable errors are reported and do not stop a line. -/
  keepGoing : Bool
  maxAliasDepth : Nat
  /-- The programs on the search path of the process become commands. -/
  pathCommands : Bool
  deriving DecidableEq

namespace Options

def programName : String := "shell_kernel"

def usage : Usage :=
  ⟨programName ++ " [-c <command>] [--rc <rc>] [--keep-going] " ++
      "[--max-alias-depth <max-alias-depth>] [--log <log>] [--path-commands]",
    "Interactive shell over a hierarchical command namespace.",[],
    [("-c, --command","run this line and exit instead of starting the prompt."),
      ("--rc","file whose lines are run before anything else."),
      ("--keep-going","report recoverable errors and keep going instead of stopping."),
      ("--max-alias-depth","how deep aliases may expand inside one another."),
      ("--log","log level: error, warn, info, debug or trace."),
      ("--path-commands","register the executables found on PATH under /ext.")]⟩

/-- A depth is a whole number below 2 ^ 64. -/
def depth (text : String) : Except Integer.Fault Int :=
  Integer.parse 0 (Int.ofNat (UInt64.size - 1)) text

def checkDepth (text : String) : Option String :=
  match depth text with
  | .ok _ => none
  | .error fault => some fault.message

open Arguments in
def signature : Signature :=
  ⟨[⟨["-c","--command"],"command",some anything⟩,⟨["--rc"],"rc",some anything⟩,
    ⟨["--keep-going"],"keep-going",none⟩,
    ⟨["--max-alias-depth"],"max-alias-depth",some checkDepth⟩,
    ⟨["--log"],"log",some anything⟩,⟨["--path-commands"],"path-commands",none⟩],[]⟩

/-- The options as they were bound. The level of the log is read by nobody here. -/
def ofBound (b : Arguments.Bound) : Options where
  line := b.value? "command"
  startup := b.value? "rc"
  keepGoing := b.has "keep-going"
  maxAliasDepth :=
    match (b.value? "max-alias-depth").map depth with
    | some (.ok n) => n.toNat
    | _ => 16
  pathCommands := b.has "path-commands"

def parse (args : List String) : Except Arguments.Fault (Option Options) :=
  (Arguments.parse signature args).map fun
    | .help => none
    | .bound b => some (ofBound b)

def report (fault : Arguments.Fault) : String :=
  fault.message ++ "\nRun " ++ programName ++ " --help for more information.\n"

end Options
end CommandShell
