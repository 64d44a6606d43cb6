import CommandShell.Command

/-! What the command of an external program does: it starts the program, waits for its end and
passes on what it wrote. -/
namespace CommandShell
namespace External

variable {κ : Type}

/-- Runs the program on the arguments as they are, with the variables of the session. What it wrote
is passed on after its end, the output first; the value is its status. -/
def body (file : String) (i : Invocation) : Program κ Value :=
  .ask .environment fun e => .ask (.launch file i.args e.toList) fun
    | .error error => .fail (.context ("can't run " ++ file) (.io error))
    | .ok ended => do
      Program.writeBytes .output ended.output
      Program.writeBytes .errors ended.errors
      return .status ended.status

def command (file : String) : Command κ := .ofBody (body file)

end External
end CommandShell
