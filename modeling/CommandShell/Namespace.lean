import CommandShell.Registry
import CommandShell.Tree

/-! The tree that follows a registry.
It takes the pending events before it is read, so a reader sees every registration. -/
namespace CommandShell

structure Namespace (κ : Type) where
  tree : Tree (Registered κ)
  subscription : SubscriptionId

namespace Tree

variable {κ : Type}

/-- Applies one event. Nothing happens when the very same command is there already, when what is
to be removed is gone, or when the path cannot be used. -/
def apply (t : Tree (Registered κ)) : Event κ → Tree (Registered κ)
  | .added r =>
    let existing := (t.find? rootId r.path).bind t.node?
    if existing.any fun n => n.payload.command?.any r.same then t
    else match t.add r.path (.command r) with
      | .ok (_,t) => t
      | .error _ => t
  | .removed path =>
    match t.remove path with
    | .ok (_,t) => t
    | .error _ => t

end Tree

namespace Namespace

variable {κ : Type}

def sync (n : Namespace κ) (r : Registry κ) : Namespace κ × Registry κ :=
  let (events,r) := r.drain n.subscription
  ({ n with tree := events.foldl Tree.apply n.tree },r)

def attach (r : Registry κ) : Namespace κ × Registry κ :=
  let (id,r) := r.subscribe
  sync ⟨.empty,id⟩ r

end Namespace
end CommandShell
