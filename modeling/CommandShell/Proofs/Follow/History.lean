import CommandShell.Proofs.Follow.Queue

/-! Namespaces never drift away from their registry.
In every history of registrations, removals and reads each namespace lists some earlier set of
commands, and the events in its queue lead from there to the present one. -/
namespace CommandShell

variable {κ : Type}

/-- A registry with the namespaces that follow it. -/
structure World (κ : Type) where
  registry : Registry κ
  namespaces : List (Namespace κ)

/-- One call, which may be refused. -/
inductive Call (κ : Type)
  | register (d : Descriptor κ)
  | unregister (name : String)
  | attach
  /-- A read of the namespace with this number. -/
  | sync (i : Nat)

namespace World

def empty : World κ := ⟨.empty,[]⟩

def step (w : World κ) : Call κ → World κ
  | .register d => match w.registry.register d with
    | .ok (_,r) => { w with registry := r }
    | .error _ => w
  | .unregister name => match w.registry.unregister name with
    | .ok (_,r) => { w with registry := r }
    | .error _ => w
  | .attach =>
    let (n,r) := Namespace.attach w.registry
    ⟨r,w.namespaces ++ [n]⟩
  | .sync i => match w.namespaces[i]? with
    | some n =>
      let (n,r) := n.sync w.registry
      ⟨r,w.namespaces.set i n⟩
    | none => w

end World

namespace Namespace

variable {r r' : Registry κ} {n : Namespace κ}

theorem commands_sync (n : Namespace κ) (r : Registry κ) :
    (n.sync r).2.commands = r.commands := by
  simp only [sync,Registry.drain]
  split <;> rfl

theorem nextSubscription_sync (n : Namespace κ) (r : Registry κ) :
    (n.sync r).2.nextSubscription = r.nextSubscription := by
  simp only [sync,Registry.drain]
  split <;> rfl

theorem queue_sync {id : SubscriptionId} (h : n.subscription ≠ id) :
    (n.sync r).2.queues[id]? = r.queues[id]? := by
  simp only [sync,Registry.drain]
  split
  · exact (SortedMap.getElem?_insert _ _ _ _).trans (if_neg h)
  · rfl

/-- The tree lists what was registered before the pending events. -/
structure Follows (n : Namespace κ) (r : Registry κ) (S : Set (Registered κ)) : Prop where
  queue : ∃ queue, r.queues[n.subscription]? = some queue
  early : n.subscription < r.nextSubscription
  roster : Roster S
  lists : n.tree.Lists S
  fits : Event.FitAll S (r.pending n.subscription)
  arrives : (r.pending n.subscription).foldl Event.on S = r.registered

namespace Follows

variable {S : Set (Registered κ)}

theorem of_changes (h : n.Follows r S) {e : Event κ} (hc : r.Changes e r') :
    n.Follows r' S := by
  obtain ⟨queue,hq⟩ := h.queue
  have hq' : r'.queues[n.subscription]? = some (queue ++ [e]) := by
    rw [hc.queue,hq]
    rfl
  have hfits := h.fits
  have harr := h.arrives
  rw [Registry.pending_eq hq] at hfits harr
  refine ⟨⟨_,hq'⟩,hc.next ▸ h.early,h.roster,h.lists,?_,?_⟩
  · rw [Registry.pending_eq hq']
    exact Event.fitAll_concat hfits (harr ▸ hc.fits)
  · rw [Registry.pending_eq hq',List.foldl_append,harr]
    exact hc.registered.symm

theorem congr (h : n.Follows r S) (hc : r'.commands = r.commands)
    (hq : r'.queues[n.subscription]? = r.queues[n.subscription]?)
    (hn : r.nextSubscription ≤ r'.nextSubscription) : n.Follows r' S := by
  have hpending : r'.pending n.subscription = r.pending n.subscription := by
    obtain ⟨queue,hk⟩ := h.queue
    rw [Registry.pending_eq hk,Registry.pending_eq (hq.trans hk)]
  refine ⟨hq ▸ h.queue,h.early.trans_le hn,h.roster,h.lists,?_,?_⟩
  · rw [hpending]
    exact h.fits
  · rw [hpending,h.arrives,Registry.registered_congr hc]

/-- A read takes all pending events, and the tree lists what is registered now. -/
theorem sync (h : n.Follows r S) (hr : r.Sound) : n.tree.TakesAll (r.pending n.subscription) ∧
    (n.sync r).1.Follows (n.sync r).2 r.registered := by
  obtain ⟨queue,hk⟩ := h.queue
  obtain ⟨htakes,hlists⟩ := h.lists.takesAll _ h.roster h.fits
  rw [h.arrives] at hlists
  have hq : (n.sync r).2.queues[n.subscription]? = some [] := by
    simp [Namespace.sync,Registry.drain,hk]
  have hpending : (n.sync r).2.pending (n.sync r).1.subscription = [] := Registry.pending_eq hq
  refine ⟨htakes,⟨⟨_,hq⟩,?_,hr.roster,hlists,?_,?_⟩⟩
  · rw [nextSubscription_sync]
    exact h.early
  · rw [hpending]
    trivial
  · rw [hpending,Registry.registered_congr (commands_sync n r)]
    rfl

theorem subscribe (h : n.Follows r S) : n.Follows r.subscribe.2 S := by
  refine h.congr rfl ?_ (Nat.le_succ _)
  exact (SortedMap.getElem?_insert _ _ _ _).trans (if_neg h.early.ne')

theorem of_subscribe (hr : r.Sound) :
    (⟨.empty,r.subscribe.1⟩ : Namespace κ).Follows r.subscribe.2 ∅ := by
  have hq : r.subscribe.2.queues[r.subscribe.1]? = some (r.toList.map .added) :=
    (SortedMap.getElem?_insert _ _ _ _).trans (if_pos rfl)
  obtain ⟨hfits,harrives⟩ := hr.fitAll_replay
  refine ⟨⟨_,hq⟩,Nat.lt_succ_self _,roster_empty,Tree.lists_empty,?_,?_⟩
  · rw [Registry.pending_eq hq]
    exact hfits
  · rw [Registry.pending_eq hq,harrives]
    rfl

end Follows
end Namespace

namespace World

variable {w : World κ}

/-- Every namespace has a queue of its own and follows the registry. -/
structure Good (w : World κ) : Prop where
  sound : w.registry.Sound
  follows : ∀ {i : Nat} {n}, w.namespaces[i]? = some n → ∃ S, n.Follows w.registry S
  distinct : ∀ {i j : Nat} {n m}, w.namespaces[i]? = some n → w.namespaces[j]? = some m →
    n.subscription = m.subscription → i = j

theorem good_empty : (empty : World κ).Good :=
  ⟨Registry.sound_empty,by simp [empty],by simp [empty]⟩

namespace Good

theorem changes (h : w.Good) {e : Event κ} {r : Registry κ} (hc : w.registry.Changes e r) :
    Good { w with registry := r } := by
  refine ⟨hc.sound,fun hi => ?_,h.distinct⟩
  obtain ⟨S,hS⟩ := h.follows hi
  exact ⟨S,hS.of_changes hc⟩

theorem sync (h : w.Good) {i : Nat} {n : Namespace κ} (hn : w.namespaces[i]? = some n) :
    Good ⟨(n.sync w.registry).2,w.namespaces.set i (n.sync w.registry).1⟩ := by
  have hget : ∀ {j : Nat} {m}, (w.namespaces.set i (n.sync w.registry).1)[j]? = some m →
      (j = i ∧ m = (n.sync w.registry).1) ∨ (j ≠ i ∧ w.namespaces[j]? = some m) := by
    intro j m hm
    by_cases hj : i = j
    · subst hj
      rw [List.getElem?_set_self (List.getElem?_eq_some_iff.1 hn).1] at hm
      exact .inl ⟨rfl,(Option.some.inj hm).symm⟩
    · rw [List.getElem?_set_ne hj] at hm
      exact .inr ⟨Ne.symm hj,hm⟩
  refine ⟨h.sound.congr (Namespace.commands_sync n _),fun hj => ?_,fun hj hk he => ?_⟩
  · rcases hget hj with ⟨-,rfl⟩ | ⟨hne,hm⟩
    · obtain ⟨S,hS⟩ := h.follows hn
      exact ⟨_,(hS.sync h.sound).2⟩
    · obtain ⟨S,hS⟩ := h.follows hm
      refine ⟨S,hS.congr (Namespace.commands_sync n _) (Namespace.queue_sync fun he => ?_) ?_⟩
      · exact hne (h.distinct hn hm he).symm
      · exact (Namespace.nextSubscription_sync n _).ge
  · rcases hget hj with ⟨rfl,rfl⟩ | ⟨-,hj'⟩ <;> rcases hget hk with ⟨rfl,rfl⟩ | ⟨-,hk'⟩
    · rfl
    · exact h.distinct hn hk' he
    · exact h.distinct hj' hn he
    · exact h.distinct hj' hk' he

theorem subscribe (h : w.Good) :
    Good ⟨w.registry.subscribe.2,w.namespaces ++ [⟨.empty,w.registry.subscribe.1⟩]⟩ := by
  have hnew : ∀ {j : Nat} {m}, w.namespaces[j]? = some m →
      m.subscription ≠ w.registry.nextSubscription := by
    intro j m hm
    obtain ⟨S,hS⟩ := h.follows hm
    exact hS.early.ne
  have hget : ∀ {j : Nat} {m}, (w.namespaces ++ [⟨.empty,w.registry.subscribe.1⟩])[j]? = some m →
      w.namespaces[j]? = some m ∨
        (j = w.namespaces.length ∧ m = ⟨.empty,w.registry.nextSubscription⟩) := by
    intro j m hm
    rw [List.getElem?_append] at hm
    split_ifs at hm with hj
    · exact .inl hm
    · rw [List.getElem?_singleton] at hm
      split_ifs at hm with h0
      exact .inr ⟨by omega,(Option.some.inj hm).symm⟩
  refine ⟨h.sound.congr rfl,fun hj => ?_,fun hj hk he => ?_⟩
  · rcases hget hj with hj | ⟨-,rfl⟩
    · obtain ⟨S,hS⟩ := h.follows hj
      exact ⟨S,hS.subscribe⟩
    · exact ⟨∅,.of_subscribe h.sound⟩
  · rcases hget hj with hj | ⟨rfl,rfl⟩ <;> rcases hget hk with hk | ⟨rfl,rfl⟩
    · exact h.distinct hj hk he
    · exact absurd he (hnew hj)
    · exact absurd he.symm (hnew hk)
    · rfl

theorem attach (h : w.Good) :
    Good ⟨(Namespace.attach w.registry).2,w.namespaces ++ [(Namespace.attach w.registry).1]⟩ := by
  have hlast := h.subscribe.sync (i := w.namespaces.length) List.getElem?_concat_length
  rwa [List.set_append_right _ _ le_rfl,Nat.sub_self,List.set_cons_zero] at hlast

theorem step (h : w.Good) (c : Call κ) : (w.step c).Good := by
  cases c with
  | register d =>
    simp only [World.step]
    split
    case h_1 _ r hr => exact h.changes (Registry.changes_of_register h.sound hr)
    case h_2 => exact h
  | unregister name =>
    simp only [World.step]
    split
    case h_1 _ r hr => exact h.changes (Registry.changes_of_unregister h.sound hr)
    case h_2 => exact h
  | attach => exact h.attach
  | sync i =>
    simp only [World.step]
    split
    case h_1 n hn => exact h.sync hn
    case h_2 => exact h

theorem foldl (history : List (Call κ)) (h : w.Good) : (history.foldl World.step w).Good := by
  induction history generalizing w with
  | nil => exact h
  | cons c history ih => exact ih (h.step c)

end Good
end World

/-- The tree holds the registered commands, each once and at its own path, and besides the root
only the groups above them. -/
structure Tree.Mirrors (t : Tree (Registered κ)) (r : Registry κ) : Prop where
  keyed : ∀ (key : String) c, r.commands[key]? = some c → c.path.text = key
  commands : ∀ p c, (∃ id, t.Stands id p (.command c)) ↔
    r.commands[p.text]? = some c ∧ c.path = p
  groups : ∀ p, (∃ id, id ≠ rootId ∧ t.Stands id p .group) ↔
    ∃ (key : String) (c : _), r.commands[key]? = some c ∧ p.absolute = true ∧
      p.segments ∈ above c.path.segments
  once : ∀ id other p x y, t.Stands id p x → t.Stands other p y → id = other

theorem Tree.Lists.mirrors {t : Tree (Registered κ)} {r : Registry κ} (hr : r.Sound)
    (h : t.Lists r.registered) : t.Mirrors r := by
  refine ⟨fun _ _ => hr.keyed,fun p c => ?_,fun p => ?_,fun _ _ _ _ _ => h.stands_inj⟩
  · rw [h.stands_command_iff hr.roster]
    constructor
    · rintro ⟨hc,rfl⟩
      exact ⟨hr.entry hc,rfl⟩
    · rintro ⟨hc,hp⟩
      exact ⟨Registry.mem_registered.2 ⟨_,hc⟩,hp⟩
  · rw [h.stands_group_iff]
    constructor
    · rintro ⟨c,hc,hm⟩
      exact ⟨_,c,hr.entry hc,hm⟩
    · rintro ⟨key,c,hc,hm⟩
      exact ⟨c,Registry.mem_registered.2 ⟨key,hc⟩,hm⟩

namespace World

/-- After every history a namespace that is attached now takes all that is replayed to it. Each
that is there takes all its pending events, and when it is read its tree holds exactly what is
registered. -/
theorem mirrors_after (history : List (Call κ)) :
    let w := history.foldl step empty
    Tree.empty.TakesAll (w.registry.subscribe.2.pending w.registry.subscribe.1) ∧
      ∀ n ∈ w.namespaces, n.tree.TakesAll (w.registry.pending n.subscription) ∧
        (n.sync w.registry).1.tree.Mirrors w.registry := by
  intro w
  have h : w.Good := good_empty.foldl history
  have hnew := (Namespace.Follows.of_subscribe h.sound).sync (h.sound.congr rfl)
  refine ⟨hnew.1,fun n hn => ?_⟩
  obtain ⟨i,hi⟩ := List.mem_iff_getElem?.1 hn
  obtain ⟨S,hS⟩ := h.follows hi
  obtain ⟨htakes,hf⟩ := hS.sync h.sound
  exact ⟨htakes,hf.lists.mirrors h.sound⟩

def shortening : List (Call Unit) :=
  [.register (.named "/a/b" ()),.register (.named "/c" ()),.attach,.unregister "a/b",
    .register (.named "/a" ()),.register (.named "/a/d" ())]

/-- Two events are pending, for the last registration was refused. When they are read, the command
`/a` takes the place of the group. -/
theorem mirrors_after_shortening :
    let w := shortening.foldl step empty
    ∃ n ∈ w.namespaces, (w.registry.pending n.subscription).length = 2 ∧
      n.tree.TakesAll (w.registry.pending n.subscription) ∧
      (n.sync w.registry).1.tree.Mirrors w.registry ∧
      ∃ id c, (n.sync w.registry).1.tree.Stands id ⟨true,["a"]⟩ (.command c) := by
  intro w
  have hhead : (w.namespaces.head?.map fun n => (w.registry.pending n.subscription).length) =
      some 2 := by decide +kernel
  obtain ⟨n,hn,hpending⟩ := Option.map_eq_some_iff.1 hhead
  have hmem : n ∈ w.namespaces := List.mem_of_head? hn
  obtain ⟨htakes,hm⟩ := (mirrors_after shortening).2 _ hmem
  have hsome : (w.registry.commands["/a"]?.map Registered.path) = some ⟨true,["a"]⟩ := by
    decide +kernel
  obtain ⟨c,hc,hp⟩ := Option.map_eq_some_iff.1 hsome
  obtain ⟨id,hid⟩ := (hm.commands ⟨true,["a"]⟩ c).2 ⟨hc,hp⟩
  exact ⟨_,hmem,hpending,htakes,hm,id,c,hid⟩

end World
end CommandShell
