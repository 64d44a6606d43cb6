import CommandShell.Kernel
import CommandShell.Proofs.Registry.Convergence

/-! Histories of a kernel.
A kernel is a registry with two followers, the tree and the completions, so it does what such a
registry does. -/
namespace CommandShell
namespace Kernel

variable {κ : Type} {k : Kernel κ}

/-- One call from any session. -/
inductive Call (κ : Type)
  | register (d : Descriptor κ)
  | unregister (name : String)
  | read
  | complete (start : String)

def step (k : Kernel κ) : Call κ → Kernel κ
  | .register d => match k.register d with
    | .ok (_,k) => k
    | .error _ => k
  | .unregister name => match k.unregister name with
    | .ok (_,k) => k
    | .error _ => k
  | .read => k.synced
  | .complete start => (k.complete start).2

def run (k : Kernel κ) (history : List (Call κ)) : Kernel κ := history.foldl step k

def hub (k : Kernel κ) : Hub κ := ⟨k.registry,[.names k.names,.completion k.completion]⟩

def Call.onHub : Call κ → Hub.Call κ
  | register d => .attempt (.register d)
  | unregister name => .attempt (.unregister name)
  | read => .sync 0
  | complete _ => .sync 1

theorem hub_empty : (empty : Kernel κ).hub = Hub.empty.run [.join .names,.join .completion] := rfl

theorem hub_step (k : Kernel κ) (c : Call κ) : (k.step c).hub = k.hub.step c.onHub := by
  cases c with
  | register d =>
    cases hr : k.registry.register d <;>
      simp [step,hub,Call.onHub,Hub.step,Kernel.register,Registry.after,Registry.attempt,hr,
        Except.map]
  | unregister name =>
    cases hr : k.registry.unregister name <;>
      simp [step,hub,Call.onHub,Hub.step,Kernel.unregister,Registry.after,Registry.attempt,hr,
        Except.map]
  | read => rfl
  | complete start => rfl

theorem good_empty : (empty : Kernel κ).hub.Good :=
  hub_empty (κ := κ) ▸ Hub.good_empty.run _

theorem good_run (history : List (Call κ)) (hk : k.hub.Good) : (k.run history).hub.Good := by
  induction history generalizing k with
  | nil => exact hk
  | cons c history ih => exact ih (k.hub_step c ▸ hk.step c.onHub)

theorem synced_lists (hk : k.hub.Good) : k.synced.names.tree.Lists k.registry.registered :=
  hk.names_lists (i := 0) rfl

end Kernel
end CommandShell
