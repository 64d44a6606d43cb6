import CommandShell.Completion
import CommandShell.Proofs.Registry.Delivery

/-! Those who follow a registry.
A listener keeps the events that it takes, a namespace puts them into its tree, and a completion
index into its paths. All three get their events in the same way, so what is true of the sequence
of events that one of them gets is true of all. -/
namespace CommandShell

variable {κ : Type}

inductive Follower (κ : Type)
  /-- It keeps all that it has taken from its queue. -/
  | listener (subscription : SubscriptionId) (taken : List (Event κ))
  /-- Its queue was closed. -/
  | closed (taken : List (Event κ))
  | names (n : Namespace κ)
  | completion (c : Completion)

namespace Follower

inductive Kind
  | listener
  | names
  | completion
  deriving DecidableEq

def subscription? : Follower κ → Option SubscriptionId
  | listener id _ => some id
  | closed _ => none
  | names n => some n.subscription
  | completion c => some c.subscription

def join (k : Kind) (r : Registry κ) : Follower κ × Registry κ :=
  match k with
  | .listener => (listener r.subscribe.1 [],r.subscribe.2)
  | .names => (names (Namespace.attach r).1,(Namespace.attach r).2)
  | .completion => (completion (Completion.attach r).1,(Completion.attach r).2)

/-- A listener takes one event; the others take events only all at once. -/
def next (f : Follower κ) (r : Registry κ) : Follower κ × Registry κ :=
  match f with
  | listener id taken => (listener id (taken ++ (r.next id).1.toList),(r.next id).2)
  | f => (f,r)

def sync (f : Follower κ) (r : Registry κ) : Follower κ × Registry κ :=
  match f with
  | listener id taken => (listener id (taken ++ (r.drain id).1),(r.drain id).2)
  | closed taken => (closed taken,r)
  | names n => (names (n.sync r).1,(n.sync r).2)
  | completion c => (completion (c.sync r).1,(c.sync r).2)

def close (f : Follower κ) (r : Registry κ) : Follower κ × Registry κ :=
  match f with
  | listener id taken => (closed taken,r.drop id)
  | closed taken => (closed taken,r)
  | names n => (closed [],r.drop n.subscription)
  | completion c => (closed [],r.drop c.subscription)

/-- The follower has got the sequence, apart from what is still in its queue. -/
def Follows (f : Follower κ) (r : Registry κ) (seq : List (Event κ)) : Prop :=
  match f with
  | listener id taken => r.Delivers id taken seq
  | closed taken => taken <+: seq
  | names n => ∃ taken, n.tree = taken.foldl Tree.apply .empty ∧
      r.Delivers n.subscription taken seq
  | completion c => ∃ taken, c.paths = taken.foldl Completion.record ∅ ∧
      r.Delivers c.subscription taken seq

def Stays : Follower κ → Follower κ → Prop
  | listener id _,listener id' _ => id' = id
  | closed taken,closed taken' => taken' = taken
  | names n,names n' => n'.subscription = n.subscription
  | completion c,completion c' => c'.subscription = c.subscription
  | _,_ => False

variable {f f' : Follower κ} {r r' : Registry κ} {seq : List (Event κ)}

theorem stays_refl (f : Follower κ) : f.Stays f := by
  cases f <;> rfl

theorem Stays.trans {f'' : Follower κ} (h : f.Stays f') (h' : f'.Stays f'') : f.Stays f'' := by
  cases f <;> cases f' <;> cases f'' <;> simp_all [Stays]

theorem Follows.congr (h : f.Follows r seq) (hn : r.nextSubscription ≤ r'.nextSubscription)
    (hq : ∀ id, f.subscription? = some id → r'.queues[id]? = r.queues[id]?) :
    f.Follows r' seq := by
  cases f with
  | listener id taken => exact Registry.Delivers.congr h hn (hq id rfl)
  | closed taken => exact h
  | names n =>
    obtain ⟨taken,ht,hd⟩ := h
    exact ⟨taken,ht,hd.congr hn (hq _ rfl)⟩
  | completion c =>
    obtain ⟨taken,ht,hd⟩ := h
    exact ⟨taken,ht,hd.congr hn (hq _ rfl)⟩

theorem Follows.early (h : f.Follows r seq) {id : SubscriptionId}
    (hid : f.subscription? = some id) : id < r.nextSubscription := by
  cases f with
  | listener id' taken => exact Option.some.inj hid ▸ Registry.Delivers.early h
  | closed taken => cases hid
  | names n =>
    obtain ⟨taken,-,hd⟩ := h
    exact Option.some.inj hid ▸ hd.early
  | completion c =>
    obtain ⟨taken,-,hd⟩ := h
    exact Option.some.inj hid ▸ hd.early

theorem Follows.attempt (h : f.Follows r seq) (hr : r.Sound) (a : Attempt κ) :
    f.Follows (r.after a) (seq ++ r.published a) := by
  cases f with
  | listener id taken => exact Registry.Delivers.attempt h hr a
  | closed taken => exact List.IsPrefix.trans h (List.prefix_append _ _)
  | names n =>
    obtain ⟨taken,ht,hd⟩ := h
    exact ⟨taken,ht,hd.attempt hr a⟩
  | completion c =>
    obtain ⟨taken,ht,hd⟩ := h
    exact ⟨taken,ht,hd.attempt hr a⟩

/-- Something that one follower does: the others are not concerned, and its own sequence is the
same afterwards. -/
structure Moves (f : Follower κ) (r : Registry κ) (p : Follower κ × Registry κ) : Prop
    extends r.Agree p.2 where
  nextSubscription : p.2.nextSubscription = r.nextSubscription
  queue : ∀ {other}, f.subscription? ≠ some other → p.2.queues[other]? = r.queues[other]?
  subscription : p.1.subscription? = f.subscription? ∨ p.1.subscription? = none
  follows : ∀ {seq}, f.Follows r seq → p.1.Follows p.2 seq

theorem moves_none (f : Follower κ) (r : Registry κ) : f.Moves r (f,r) :=
  ⟨.refl r,rfl,fun _ => rfl,.inl rfl,fun h => h⟩

theorem moves_of_onlyQueue {id : SubscriptionId} (hid : f.subscription? = some id)
    (hr : Registry.OnlyQueue id r r')
    (hs : f'.subscription? = f.subscription? ∨ f'.subscription? = none)
    (hf : ∀ {seq}, f.Follows r seq → f'.Follows r' seq) : f.Moves r (f',r') :=
  ⟨hr.toAgree,hr.nextSubscription,fun hne => hr.queue fun he => hne (hid.trans (he ▸ rfl)),hs,hf⟩

theorem moves_next (f : Follower κ) (r : Registry κ) : f.Moves r (f.next r) := by
  cases f with
  | listener id taken =>
    exact moves_of_onlyQueue rfl (r.onlyQueue_next id) (.inl rfl) Registry.Delivers.next
  | _ => exact moves_none _ r

theorem moves_sync (f : Follower κ) (r : Registry κ) : f.Moves r (f.sync r) := by
  cases f with
  | listener id taken =>
    exact moves_of_onlyQueue rfl (r.onlyQueue_drain id) (.inl rfl) Registry.Delivers.drain
  | closed taken => exact moves_none _ r
  | names n =>
    refine moves_of_onlyQueue rfl (r.onlyQueue_drain n.subscription) (.inl rfl) ?_
    rintro seq ⟨taken,ht,hd⟩
    exact ⟨_,by simp [Namespace.sync,ht],hd.drain⟩
  | completion c =>
    refine moves_of_onlyQueue rfl (r.onlyQueue_drain c.subscription) (.inl rfl) ?_
    rintro seq ⟨taken,ht,hd⟩
    exact ⟨_,by simp [Completion.sync,ht],hd.drain⟩

theorem moves_close (f : Follower κ) (r : Registry κ) : f.Moves r (f.close r) := by
  cases f with
  | listener id taken =>
    exact moves_of_onlyQueue rfl (r.onlyQueue_drop id) (.inr rfl) Registry.Delivers.taken_prefix
  | closed taken => exact moves_none _ r
  | names n =>
    exact moves_of_onlyQueue rfl (r.onlyQueue_drop _) (.inr rfl) fun _ => List.nil_prefix
  | completion c =>
    exact moves_of_onlyQueue rfl (r.onlyQueue_drop _) (.inr rfl) fun _ => List.nil_prefix

theorem stays_next (f : Follower κ) (r : Registry κ) : f.Stays (f.next r).1 := by
  cases f <;> rfl

theorem stays_sync (f : Follower κ) (r : Registry κ) : f.Stays (f.sync r).1 := by
  cases f <;> rfl

/-- Whoever joins gets the commands that are there, in a queue that was nobody's before. -/
structure Joins (r : Registry κ) (p : Follower κ × Registry κ) : Prop extends r.Agree p.2 where
  nextSubscription : p.2.nextSubscription = r.nextSubscription + 1
  queue : ∀ {other}, r.nextSubscription ≠ other → p.2.queues[other]? = r.queues[other]?
  subscription : p.1.subscription? = some r.nextSubscription
  follows : p.1.Follows p.2 (r.toList.map .added)

theorem joins_subscribe (hid : f.subscription? = some r.nextSubscription)
    (hf : f.Follows r.subscribe.2 (r.toList.map .added)) : Joins r (f,r.subscribe.2) := by
  refine ⟨⟨rfl,rfl⟩,rfl,fun hne => ?_,hid,hf⟩
  exact (SortedMap.getElem?_insert _ _ _ _).trans (if_neg hne)

theorem joins_join (k : Kind) (r : Registry κ) : Joins r (join k r) := by
  have hd := Registry.Delivers.of_subscribe r
  cases k with
  | listener => exact joins_subscribe rfl hd
  | names =>
    have hj : Joins r (names ⟨.empty,r.subscribe.1⟩,r.subscribe.2) :=
      joins_subscribe rfl ⟨[],rfl,hd⟩
    have hm := moves_sync (names ⟨.empty,r.subscribe.1⟩) r.subscribe.2
    refine ⟨hj.toAgree.trans hm.toAgree,hm.nextSubscription.trans hj.nextSubscription,
      fun hne => ?_,rfl,hm.follows hj.follows⟩
    exact (hm.queue fun he => hne (Option.some.inj he)).trans (hj.queue hne)
  | completion => exact joins_subscribe rfl ⟨[],rfl,hd⟩

end Follower
end CommandShell
