import CommandShell.Program

/-! Commands: how arguments are bound, and what is run then. -/
namespace CommandShell

/-- The path as it was typed, and the evaluated arguments. -/
structure Invocation where
  path : String
  args : List String
  deriving DecidableEq

inductive Binding (κ : Type)
  | ready (body : Invocation → Program κ Value)
  /-- A text is to be shown and nothing to be run. -/
  | help (text : String)

structure Command (κ : Type) where
  bind : List String → Except UsageError (Binding κ)
  /-- What is run when the arguments are taken as they are. -/
  verbatim : Invocation → Program κ Value

namespace Command

variable {κ : Type}

def ofBody (body : Invocation → Program κ Value) : Command κ :=
  ⟨fun _ => .ok (.ready body),body⟩

end Command
end CommandShell
