import CommandShell.Proofs.Follow.Conflict
import CommandShell.Proofs.Follow.Taken

/-! What a registry passes on.
A change that is accepted is one event at the end of every queue, and the event fits the commands
that were registered before. -/
namespace CommandShell
namespace Registry

variable {κ : Type} {r r' : Registry κ} {c : Registered κ} {e : Event κ}

def pending (r : Registry κ) (id : SubscriptionId) : List (Event κ) := (r.drain id).1

theorem pending_eq {id : SubscriptionId} {queue : List (Event κ)}
    (h : r.queues[id]? = some queue) : r.pending id = queue := by
  simp [pending,drain,h]

/-- The registry `r'` comes from `r` by one change that is published as `e`. -/
structure Changes (r : Registry κ) (e : Event κ) (r' : Registry κ) : Prop where
  fits : e.Fits r.registered
  sound : r'.Sound
  registered : r'.registered = e.on r.registered
  queue : ∀ id : SubscriptionId, r'.queues[id]? = (r.queues[id]?).map (· ++ [e])
  next : r'.nextSubscription = r.nextSubscription

theorem getElem?_publish (r : Registry κ) (e : Event κ) (id : SubscriptionId) :
    (r.publish e).queues[id]? = (r.queues[id]?).map (· ++ [e]) := by
  simp [publish]

variable (r') in
theorem registered_insert (h : r.Sound) (hf : (Event.added c).Fits r.registered)
    (hr : r'.commands = r.commands.insert c.path.text c) :
    r'.Sound ∧ r'.registered = (Event.added c).on r.registered := by
  have hget : ∀ key : String, r'.commands[key]? =
      if c.path.text = key then some c else r.commands[key]? := by
    intro key
    rw [hr,SortedMap.getElem?_insert]
  have hnew : ∀ d ∈ r.registered, c.path.text ≠ d.path.text := by
    intro d hd he
    have hcd := hf.1.text_inj (h.roster.registrable d hd) he
    exact (hf.2 d hd).1 (hcd ▸ List.prefix_rfl)
  have hreg : r'.registered = (Event.added c).on r.registered := by
    ext d
    rw [mem_registered]
    constructor
    · rintro ⟨key,hk⟩
      rw [hget] at hk
      split_ifs at hk with he
      · exact .inl (Option.some.inj hk).symm
      · exact .inr (mem_registered.2 ⟨key,hk⟩)
    · rintro (rfl | hd)
      · exact ⟨d.path.text,by rw [hget,if_pos rfl]⟩
      · exact ⟨d.path.text,by rw [hget,if_neg (hnew d hd),h.entry hd]⟩
  refine ⟨⟨fun {key d} hk => ?_,hreg ▸ Event.roster_on h.roster hf⟩,hreg⟩
  rw [hget] at hk
  split_ifs at hk with he
  · rw [← Option.some.inj hk,he]
  · exact h.keyed hk

variable (r') in
theorem registered_erase (h : r.Sound) (hc : c ∈ r.registered)
    (hr : r'.commands = r.commands.erase c.path.text) :
    r'.Sound ∧ r'.registered = (Event.removed c.path).on r.registered := by
  have hget : ∀ key : String, r'.commands[key]? =
      if c.path.text = key then none else r.commands[key]? := by
    intro key
    rw [hr,SortedMap.getElem?_erase]
  have hreg : r'.registered = (Event.removed c.path).on r.registered := by
    ext d
    rw [mem_registered]
    constructor
    · rintro ⟨key,hk⟩
      rw [hget] at hk
      split_ifs at hk with he
      refine ⟨mem_registered.2 ⟨key,hk⟩,fun hp => he ?_⟩
      rw [← hp,h.keyed hk]
    · rintro ⟨hd,hne⟩
      refine ⟨d.path.text,?_⟩
      rw [hget,if_neg,h.entry hd]
      intro he
      exact hne ((h.roster.registrable c hc).text_inj (h.roster.registrable d hd) he).symm
  refine ⟨⟨fun {key d} hk => ?_,?_⟩,hreg⟩
  · rw [hget] at hk
    split_ifs at hk
    exact h.keyed hk
  · rw [hreg]
    exact Event.roster_on h.roster ⟨c,hc,rfl⟩

theorem changes_of_register (h : r.Sound) {d : Descriptor κ} (hok : r.register d = .ok (c,r')) :
    r.Changes (.added c) r' := by
  unfold register at hok
  simp only at hok
  split_ifs at hok with hvalid hfree
  split at hok
  case h_1 => cases hok
  case h_2 hn =>
    obtain ⟨rfl,rfl⟩ := Prod.mk.inj (Except.ok.inj hok)
    have hreg : d.name.Registrable := by
      refine ⟨?_,by simpa using hvalid⟩
      rw [← d.name_normal,Path.absolute_fromRoot]
    have hf : (Event.added ⟨r.nextSerial,d⟩).Fits r.registered :=
      ⟨hreg,h.apart hreg (Bool.eq_false_iff.2 hfree) hn⟩
    have hins := registered_insert
      ({ r with
        commands := r.commands.insert d.name.text ⟨r.nextSerial,d⟩
        nextSerial := r.nextSerial + 1 }.publish (.added ⟨r.nextSerial,d⟩)) h hf rfl
    exact ⟨hf,hins.1,hins.2,getElem?_publish _ _,rfl⟩

theorem changes_of_unregister (h : r.Sound) {name : String}
    (hok : r.unregister name = .ok (c,r')) : r.Changes (.removed c.path) r' := by
  unfold unregister at hok
  split at hok
  case h_1 => cases hok
  case h_2 key _ =>
    split at hok
    case h_1 => cases hok
    case h_2 entry hk =>
      obtain ⟨rfl,rfl⟩ := Prod.mk.inj (Except.ok.inj hok)
      have hc : entry ∈ r.registered := mem_registered.2 ⟨key,hk⟩
      have hera := registered_erase
        ({ r with commands := r.commands.erase key }.publish (.removed entry.path)) h hc
        (by rw [h.keyed hk]; rfl)
      exact ⟨⟨entry,hc,rfl⟩,hera.1,hera.2,getElem?_publish _ _,rfl⟩

/-- The replay for a new subscriber adds all commands one by one. -/
theorem Sound.fitAll_replay (h : r.Sound) :
    Event.FitAll ∅ (r.toList.map .added) ∧
      (r.toList.map Event.added).foldl Event.on ∅ = r.registered := by
  have hpair : r.toList.Pairwise fun c d => d.path.Apart c.path := by
    rw [toList,SortedMap.values_eq_map,List.pairwise_map]
    have hkeys := r.commands.distinct_keys_toList
    refine hkeys.imp_of_mem fun {a b} ha hb hne => ?_
    rw [Std.TreeMap.mem_toList_iff_getElem?_eq_some] at ha hb
    have hab : a.2 ≠ b.2 := by
      intro he
      refine hne ?_
      rw [← h.keyed ha,← h.keyed hb,he]
      exact Std.ReflCmp.compare_self
    have ha' := mem_registered.2 ⟨_,ha⟩
    have hb' := mem_registered.2 ⟨_,hb⟩
    exact ⟨fun hp => hab (h.roster.apart _ hb' _ ha' hp).symm,
      fun hp => hab (h.roster.apart _ ha' _ hb' hp)⟩
  have hadd := Event.fitAll_map_added (S := ∅) (fun c hc => h.roster.registrable c hc) hpair
    (by simp)
  exact ⟨hadd.1,by rw [hadd.2,Set.empty_union]; rfl⟩

end Registry
end CommandShell
