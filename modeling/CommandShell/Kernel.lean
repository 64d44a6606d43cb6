import CommandShell.Completion
import CommandShell.Namespace

/-! What all sessions share: the registered commands, their tree and their completions. -/
namespace CommandShell

structure Kernel (κ : Type) where
  registry : Registry κ
  names : Namespace κ
  completion : Completion

namespace Kernel

variable {κ : Type}

def empty : Kernel κ :=
  let (names,registry) := Namespace.attach Registry.empty
  let (completion,registry) := Completion.attach registry
  ⟨registry,names,completion⟩

instance : Inhabited (Kernel κ) := ⟨empty⟩

def synced (k : Kernel κ) : Kernel κ :=
  let (names,registry) := k.names.sync k.registry
  { k with names := names, registry := registry }

def register (k : Kernel κ) (d : Descriptor κ) : Except RegistryError (Registered κ × Kernel κ) :=
  (k.registry.register d).map fun (r,registry) => (r,{ k with registry := registry })

def unregister (k : Kernel κ) (name : String) : Except RegistryError (Registered κ × Kernel κ) :=
  (k.registry.unregister name).map fun (r,registry) => (r,{ k with registry := registry })

def complete (k : Kernel κ) (start : String) : List String × Kernel κ :=
  let (completion,registry) := k.completion.sync k.registry
  (completion.complete start,{ k with completion := completion, registry := registry })

end Kernel
end CommandShell
