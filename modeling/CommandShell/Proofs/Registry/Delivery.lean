import CommandShell.Proofs.Registry.Attempt

/-! The sequence of events that a subscriber gets.
It starts with the replay of the registered commands and goes on with whatever is published.
Taking events, one by one or all at once, only moves them from the queue to the subscriber, and
what happens to one queue is nothing to the others. -/
namespace CommandShell
namespace Registry

variable {κ : Type} {r r' : Registry κ} {id other : SubscriptionId}
  {taken seq : List (Event κ)}

/-- The two differ in one queue at most. -/
structure OnlyQueue (id : SubscriptionId) (r r' : Registry κ) : Prop extends r.Agree r' where
  nextSubscription : r'.nextSubscription = r.nextSubscription
  queue : ∀ {other : SubscriptionId}, id ≠ other → r'.queues[other]? = r.queues[other]?

theorem onlyQueue_refl (id : SubscriptionId) (r : Registry κ) : OnlyQueue id r r :=
  ⟨.refl r,rfl,fun _ => rfl⟩

theorem onlyQueue_insert (r : Registry κ) (id : SubscriptionId) (queue : List (Event κ)) :
    OnlyQueue id r { r with queues := r.queues.insert id queue } := by
  refine ⟨⟨rfl,rfl⟩,rfl,fun hne => ?_⟩
  exact (SortedMap.getElem?_insert _ _ _ _).trans (if_neg hne)

theorem onlyQueue_drain (r : Registry κ) (id : SubscriptionId) :
    OnlyQueue id r (r.drain id).2 := by
  unfold drain
  split
  · exact onlyQueue_insert r id []
  · exact onlyQueue_refl id r

theorem onlyQueue_next (r : Registry κ) (id : SubscriptionId) : OnlyQueue id r (r.next id).2 := by
  unfold next
  split
  · exact onlyQueue_insert r id _
  · exact onlyQueue_refl id r

theorem onlyQueue_drop (r : Registry κ) (id : SubscriptionId) : OnlyQueue id r (r.drop id) := by
  refine ⟨⟨rfl,rfl⟩,rfl,fun hne => ?_⟩
  exact (SortedMap.getElem?_erase _ _ _).trans (if_neg hne)

/-- The queue is open, and what was taken from it and what it still holds make up the sequence. -/
structure Delivers (r : Registry κ) (id : SubscriptionId) (taken seq : List (Event κ)) : Prop where
  early : id < r.nextSubscription
  queue : ∃ queue, r.queues[id]? = some queue ∧ taken ++ queue = seq

namespace Delivers

theorem pending (h : r.Delivers id taken seq) : taken ++ r.pending id = seq := by
  obtain ⟨queue,hq,hseq⟩ := h.queue
  rw [pending_eq hq,hseq]

theorem taken_prefix (h : r.Delivers id taken seq) : taken <+: seq := ⟨_,h.pending⟩

theorem congr (h : r.Delivers id taken seq) (hn : r.nextSubscription ≤ r'.nextSubscription)
    (hq : r'.queues[id]? = r.queues[id]?) : r'.Delivers id taken seq :=
  ⟨h.early.trans_le hn,hq ▸ h.queue⟩

/-- What is published comes at the end. -/
theorem attempt (h : r.Delivers id taken seq) (hr : r.Sound) (a : Attempt κ) :
    (r.after a).Delivers id taken (seq ++ r.published a) := by
  obtain ⟨queue,hq,hseq⟩ := h.queue
  rcases r.attempt_cases a with ⟨e,r',hok,hp,ha⟩ | ⟨-,hp,ha⟩ <;> rw [hp,ha]
  · have hc := hr.changes_of_attempt hok
    refine ⟨hc.next ▸ h.early,queue ++ [e],?_,?_⟩
    · rw [hc.queue,hq]
      rfl
    · rw [← List.append_assoc,hseq]
  · rw [List.append_nil]
    exact h

theorem of_subscribe (r : Registry κ) :
    r.subscribe.2.Delivers r.subscribe.1 [] (r.toList.map .added) := by
  refine ⟨Nat.lt_succ_self _,_,?_,List.nil_append _⟩
  exact (SortedMap.getElem?_insert _ _ _ _).trans (if_pos rfl)

theorem drain (h : r.Delivers id taken seq) :
    (r.drain id).2.Delivers id (taken ++ (r.drain id).1) seq := by
  obtain ⟨queue,hq,hseq⟩ := h.queue
  refine ⟨(onlyQueue_drain r id).nextSubscription ▸ h.early,[],?_,?_⟩
  · simp [Registry.drain,hq]
  · simpa [Registry.drain,hq] using hseq

theorem next (h : r.Delivers id taken seq) :
    (r.next id).2.Delivers id (taken ++ (r.next id).1.toList) seq := by
  obtain ⟨queue,hq,hseq⟩ := h.queue
  have hn : (r.next id).2.nextSubscription = r.nextSubscription :=
    (onlyQueue_next r id).nextSubscription
  refine ⟨hn ▸ h.early,?_⟩
  cases queue with
  | nil => exact ⟨[],by simp [Registry.next,hq],by simpa [Registry.next,hq] using hseq⟩
  | cons e queue => exact ⟨queue,by simp [Registry.next,hq],by simpa [Registry.next,hq] using hseq⟩

end Delivers

/-- The events fit one after the other and lead from nothing to the registered commands. -/
structure Traces (r : Registry κ) (seq : List (Event κ)) : Prop where
  fits : Event.FitAll ∅ seq
  arrives : seq.foldl Event.on ∅ = r.registered

theorem Traces.congr (h : r.Traces seq) (hr : r'.commands = r.commands) : r'.Traces seq :=
  ⟨h.fits,h.arrives.trans (registered_congr hr).symm⟩

theorem Sound.traces_replay (h : r.Sound) : r.Traces (r.toList.map .added) :=
  ⟨h.fitAll_replay.1,h.fitAll_replay.2⟩

theorem Traces.attempt (h : r.Traces seq) (hr : r.Sound) (a : Attempt κ) :
    (r.after a).Traces (seq ++ r.published a) := by
  obtain ⟨hfits,harrives⟩ := hr.registered_after a
  refine ⟨Event.fitAll_append h.fits (h.arrives ▸ hfits),?_⟩
  rw [List.foldl_append,h.arrives,harrives]

end Registry
end CommandShell
