import CommandShell.Proofs.Registry.Kernel

/-! Kernels that nobody changed.
Reading the tree takes the events that wait for it, and nothing else comes of it: the commands, the
completions, the queues of all others and what the tree shows when it is read stay the same. -/
namespace CommandShell
namespace Kernel

variable {κ : Type} {k k' k'' : Kernel κ}

/-- At most the tree has taken events that were waiting for it. -/
structure Still (k k' : Kernel κ) : Prop where
  registry : Registry.OnlyQueue k.names.subscription k.registry k'.registry
  subscription : k'.names.subscription = k.names.subscription
  completion : k'.completion = k.completion
  tree : k'.synced.names.tree = k.synced.names.tree

theorem still_refl (k : Kernel κ) : k.Still k := ⟨Registry.onlyQueue_refl _ _,rfl,rfl,rfl⟩

theorem Still.trans (h : k.Still k') (h' : k'.Still k'') : k.Still k'' where
  registry :=
    ⟨h.registry.toAgree.trans h'.registry.toAgree,
      h'.registry.nextSubscription.trans h.registry.nextSubscription,
      fun hne => (h'.registry.queue (h.subscription ▸ hne)).trans (h.registry.queue hne)⟩
  subscription := h'.subscription.trans h.subscription
  completion := h'.completion.trans h.completion
  tree := h'.tree.trans h.tree

theorem drain_drain (r : Registry κ) (id : SubscriptionId) :
    (r.drain id).2.drain id = ([],(r.drain id).2) := by
  cases hq : r.queues[id]? with
  | none => simp [Registry.drain,hq]
  | some queue =>
    have hempty : (r.queues.insert id [])[id]? = some [] := by simp
    simp [Registry.drain,hq,SortedMap.insert_eq_self hempty]

@[simp] theorem synced_synced (k : Kernel κ) : k.synced.synced = k.synced := by
  simp [synced,Namespace.sync,drain_drain]

theorem still_synced (k : Kernel κ) : k.Still k.synced where
  registry := Registry.onlyQueue_drain _ _
  subscription := rfl
  completion := rfl
  tree := by rw [synced_synced]

theorem Still.synced (h : k.Still k') : k.Still k'.synced := h.trans k'.still_synced

theorem Still.registered (h : k.Still k') :
    k'.registry.registered = k.registry.registered :=
  Registry.registered_congr h.registry.commands

theorem Still.toList (h : k.Still k') : k'.registry.toList = k.registry.toList := by
  rw [Registry.toList,h.registry.commands,Registry.toList]

theorem subscriptions_ne (hk : k.hub.Good) : k.names.subscription ≠ k.completion.subscription := by
  intro he
  have h := hk.distinct (i := 0) (j := 1) (f := .names k.names) (g := .completion k.completion)
    rfl rfl rfl (congrArg some he.symm)
  cases h

/-- The kernel is sound, and nobody has changed it. -/
structure Stands (k k' : Kernel κ) : Prop where
  good : k'.hub.Good
  still : k.Still k'

theorem stands_self (hk : k.hub.Good) : k.Stands k := ⟨hk,still_refl k⟩

theorem Stands.synced (h : k.Stands k') : k.Stands k'.synced :=
  ⟨good_run [.read] h.good,h.still.synced⟩

theorem Still.complete (h : k.Still k') (hk : k.hub.Good) (start : String) :
    (k'.complete start).1 = (k.complete start).1 := by
  have hq := h.registry.queue (subscriptions_ne hk)
  simp only [Kernel.complete,Completion.sync,Registry.drain,h.completion,hq]
  split <;> rfl

end Kernel
end CommandShell
