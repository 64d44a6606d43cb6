import CommandShell.Proofs.Registry.Follower

/-! Histories of a registry and of those who follow it.
Followers come, take their events early or late, and go. Whatever they do, each of them gets what
was there when it joined and then every event that is published. -/
namespace CommandShell

variable {κ : Type}

/-- A registry with all who ever followed it, in the order in which they joined. -/
structure Hub (κ : Type) where
  registry : Registry κ
  followers : List (Follower κ)

namespace Hub

/-- One call. Followers are addressed by number, and only the owner of a queue can close it. -/
inductive Call (κ : Type)
  | attempt (a : Attempt κ)
  | join (k : Follower.Kind)
  | next (i : Nat)
  | sync (i : Nat)
  | close (i : Nat)

def Call.attempt? : Call κ → Option (Attempt κ)
  | attempt a => some a
  | _ => none

def empty : Hub κ := ⟨.empty,[]⟩

def move (h : Hub κ) (i : Nat)
    (act : Follower κ → Registry κ → Follower κ × Registry κ) : Hub κ :=
  match h.followers[i]? with
  | some f => ⟨(act f h.registry).2,h.followers.set i (act f h.registry).1⟩
  | none => h

def step (h : Hub κ) : Call κ → Hub κ
  | .attempt a => { h with registry := h.registry.after a }
  | .join k => ⟨(Follower.join k h.registry).2,h.followers ++ [(Follower.join k h.registry).1]⟩
  | .next i => h.move i Follower.next
  | .sync i => h.move i Follower.sync
  | .close i => h.move i Follower.close

def run (h : Hub κ) (calls : List (Call κ)) : Hub κ := calls.foldl step h

def published (h : Hub κ) (c : Call κ) : List (Event κ) :=
  h.registry.log c.attempt?.toList

theorem published_attempt (h : Hub κ) (a : Attempt κ) :
    h.published (.attempt a) = h.registry.published a := by
  simp [published,Call.attempt?,Registry.log]

theorem published_eq_nil {h : Hub κ} {c : Call κ} (hc : c.attempt? = none) :
    h.published c = [] := by
  simp [published,hc,Registry.log]

variable {h : Hub κ} {i : Nat} {f : Follower κ} {seq : List (Event κ)}

/-- The registry is sound, every follower has got a sequence of events that leads to the present
commands, and no two share a queue. -/
structure Good (h : Hub κ) : Prop where
  sound : h.registry.Sound
  follows : ∀ {i : Nat} {f}, h.followers[i]? = some f →
    ∃ seq, f.Follows h.registry seq ∧ h.registry.Traces seq
  distinct : ∀ {i j : Nat} {f g id}, h.followers[i]? = some f → h.followers[j]? = some g →
    f.subscription? = some id → g.subscription? = some id → i = j

theorem good_empty : (empty : Hub κ).Good :=
  ⟨Registry.sound_empty,by simp [empty],by simp [empty]⟩

/-- The number leads to a follower of this sequence, which is the same as `f` or has closed its
queue with this call. -/
def Keeps (h : Hub κ) (i : Nat) (f : Follower κ) (seq : List (Event κ)) (closed : Prop) : Prop :=
  ∃ f', h.followers[i]? = some f' ∧ f'.Follows h.registry seq ∧ (f.Stays f' ∨ closed)

theorem Keeps.mono {closed closed' : Prop} (hk : h.Keeps i f seq closed)
    (himp : closed → closed') : h.Keeps i f seq closed' := by
  obtain ⟨f',hi,hf,hs⟩ := hk
  exact ⟨f',hi,hf,hs.imp_right himp⟩

section Move

variable {act : Follower κ → Registry κ → Follower κ × Registry κ}

theorem move_eq (hi : h.followers[i]? = some f) (act) :
    h.move i act = ⟨(act f h.registry).2,h.followers.set i (act f h.registry).1⟩ := by
  simp only [move,hi]

theorem agree_move (ha : ∀ f r, Follower.Moves f r (act f r)) (h : Hub κ) (i : Nat) :
    h.registry.Agree (h.move i act).registry := by
  cases hi : h.followers[i]? with
  | none =>
    simp only [move,hi]
    exact .refl _
  | some f =>
    rw [move_eq hi]
    exact (ha f h.registry).toAgree

theorem Good.keeps_move (hg : h.Good) (ha : ∀ f r, Follower.Moves f r (act f r))
    (hi : h.followers[i]? = some f) (hf : f.Follows h.registry seq) (j : Nat) :
    (h.move j act).Keeps i f seq (j = i ∧ ¬f.Stays (act f h.registry).1) := by
  cases hj : h.followers[j]? with
  | none =>
    simp only [move,hj]
    exact ⟨f,hi,hf,.inl f.stays_refl⟩
  | some g =>
    have hm := ha g h.registry
    rw [move_eq hj]
    by_cases he : j = i
    · subst he
      obtain rfl : g = f := Option.some.inj (hj.symm.trans hi)
      refine ⟨_,List.getElem?_set_self (List.getElem?_eq_some_iff.1 hi).1,hm.follows hf,?_⟩
      exact or_iff_not_imp_left.2 fun hs => ⟨rfl,hs⟩
    · refine ⟨f,(List.getElem?_set_ne he).trans hi,?_,.inl f.stays_refl⟩
      refine hf.congr hm.nextSubscription.ge fun id hid => hm.queue fun hgid => he ?_
      exact hg.distinct hj hi hgid hid

theorem subscription_move (ha : ∀ f r, Follower.Moves f r (act f r)) {j : Nat} {g : Follower κ}
    (hg : (h.move j act).followers[i]? = some g) {id : SubscriptionId}
    (hid : g.subscription? = some id) :
    ∃ f, h.followers[i]? = some f ∧ f.subscription? = some id := by
  cases hj : h.followers[j]? with
  | none =>
    simp only [move,hj] at hg
    exact ⟨g,hg,hid⟩
  | some f =>
    rw [move_eq hj] at hg
    by_cases he : j = i
    · subst he
      rw [List.getElem?_set_self (List.getElem?_eq_some_iff.1 hj).1] at hg
      rw [← Option.some.inj hg] at hid
      rcases (ha f h.registry).subscription with hs | hs <;> rw [hs] at hid
      · exact ⟨f,hj,hid⟩
      · cases hid
    · rw [List.getElem?_set_ne he] at hg
      exact ⟨g,hg,hid⟩

theorem Good.move (hg : h.Good) (ha : ∀ f r, Follower.Moves f r (act f r)) (j : Nat) :
    (h.move j act).Good := by
  have hagree := agree_move ha h j
  refine ⟨hg.sound.congr hagree.commands,fun {i f'} hi => ?_,fun hi hj hid hjd => ?_⟩
  · have hsome : ∃ f, h.followers[i]? = some f := by
      have hlt : i < (h.move j act).followers.length := (List.getElem?_eq_some_iff.1 hi).1
      have hlen : (h.move j act).followers.length = h.followers.length := by
        unfold Hub.move
        split <;> simp
      exact ⟨_,List.getElem?_eq_getElem (hlen ▸ hlt)⟩
    obtain ⟨f,hf⟩ := hsome
    obtain ⟨seq,hfol,htr⟩ := hg.follows hf
    obtain ⟨g,hgi,hgf,-⟩ := hg.keeps_move ha hf hfol j
    obtain rfl : f' = g := Option.some.inj (hi.symm.trans hgi)
    exact ⟨seq,hgf,htr.congr hagree.commands⟩
  · obtain ⟨f,hf,hfid⟩ := subscription_move ha hi hid
    obtain ⟨g,hg',hgid⟩ := subscription_move ha hj hjd
    exact hg.distinct hf hg' hfid hgid

end Move

theorem getElem?_concat_cases {l : List (Follower κ)} {g x : Follower κ}
    (hi : (l ++ [x])[i]? = some g) : l[i]? = some g ∨ i = l.length ∧ g = x := by
  rw [List.getElem?_append] at hi
  split_ifs at hi with hlt
  · exact .inl hi
  · rw [List.getElem?_singleton] at hi
    split_ifs at hi with h0
    exact .inr ⟨by omega,(Option.some.inj hi).symm⟩

namespace Good

theorem keeps_join (hi : h.followers[i]? = some f) (hf : f.Follows h.registry seq)
    (k : Follower.Kind) : (h.step (.join k)).Keeps i f seq False := by
  have hj := Follower.joins_join k h.registry
  refine ⟨f,?_,?_,.inl f.stays_refl⟩
  · exact (List.getElem?_append_left (List.getElem?_eq_some_iff.1 hi).1).trans hi
  · exact hf.congr (hj.nextSubscription ▸ Nat.le_succ _) fun id hid =>
      hj.queue (hf.early hid).ne'

theorem join (hg : h.Good) (k : Follower.Kind) : (h.step (.join k)).Good := by
  have hj := Follower.joins_join k h.registry
  have hnew : ∀ {j : Nat} {g}, h.followers[j]? = some g →
      g.subscription? ≠ some h.registry.nextSubscription := by
    intro j g hjg hid
    obtain ⟨seq,hf,-⟩ := hg.follows hjg
    exact (hf.early hid).ne rfl
  refine ⟨hg.sound.congr hj.commands,fun {i f'} hi => ?_,fun hi hk hid hkd => ?_⟩
  · rcases getElem?_concat_cases hi with hi' | ⟨-,rfl⟩
    · obtain ⟨seq,hf,htr⟩ := hg.follows hi'
      obtain ⟨g,hgi,hgf,-⟩ := keeps_join hi' hf k
      obtain rfl : f' = g := Option.some.inj (hi.symm.trans hgi)
      exact ⟨seq,hgf,htr.congr hj.commands⟩
    · exact ⟨_,hj.follows,hg.sound.traces_replay.congr hj.commands⟩
  · rcases getElem?_concat_cases hi with hi' | ⟨rfl,rfl⟩ <;>
      rcases getElem?_concat_cases hk with hk' | ⟨rfl,rfl⟩
    · exact hg.distinct hi' hk' hid hkd
    · exact absurd (hid.trans (hkd.symm.trans hj.subscription)) (hnew hi')
    · exact absurd (hkd.trans (hid.symm.trans hj.subscription)) (hnew hk')
    · rfl

/-- Whatever is called, a follower's sequence goes on with what is published. -/
theorem keeps_step (hg : h.Good) (hi : h.followers[i]? = some f)
    (hf : f.Follows h.registry seq) (c : Call κ) :
    (h.step c).Keeps i f (seq ++ h.published c) (c = .close i) := by
  cases c with
  | attempt a =>
    refine ⟨f,hi,?_,.inl f.stays_refl⟩
    rw [published_attempt]
    exact hf.attempt hg.sound a
  | join k =>
    rw [published_eq_nil rfl,List.append_nil]
    exact (keeps_join hi hf k).mono False.elim
  | next j =>
    rw [published_eq_nil rfl,List.append_nil]
    exact (hg.keeps_move Follower.moves_next hi hf j).mono fun hn => absurd (f.stays_next _) hn.2
  | sync j =>
    rw [published_eq_nil rfl,List.append_nil]
    exact (hg.keeps_move Follower.moves_sync hi hf j).mono fun hn => absurd (f.stays_sync _) hn.2
  | close j =>
    rw [published_eq_nil rfl,List.append_nil]
    exact (hg.keeps_move Follower.moves_close hi hf j).mono fun hn => hn.1 ▸ rfl

theorem step (hg : h.Good) (c : Call κ) : (h.step c).Good := by
  cases c with
  | attempt a =>
    refine ⟨hg.sound.after a,fun hi => ?_,hg.distinct⟩
    obtain ⟨seq,hf,htr⟩ := hg.follows hi
    exact ⟨_,hf.attempt hg.sound a,htr.attempt hg.sound a⟩
  | join k => exact hg.join k
  | next i => exact hg.move Follower.moves_next i
  | sync i => exact hg.move Follower.moves_sync i
  | close i => exact hg.move Follower.moves_close i

theorem run (hg : h.Good) (calls : List (Call κ)) : (h.run calls).Good := by
  induction calls generalizing h with
  | nil => exact hg
  | cons c calls ih => exact ih (hg.step c)

end Good

theorem agree_step (h : Hub κ) (c : Call κ) :
    (c.attempt?.toList.foldl Registry.after h.registry).Agree (h.step c).registry := by
  cases c with
  | attempt a => exact .refl _
  | join k => exact (Follower.joins_join k h.registry).toAgree
  | next i => exact agree_move Follower.moves_next h i
  | sync i => exact agree_move Follower.moves_sync h i
  | close i => exact agree_move Follower.moves_close h i

/-- What is published from one call to the next depends on the attempts alone. -/
theorem log_cons (h : Hub κ) (c : Call κ) (calls : List (Call κ)) :
    h.registry.log ((c :: calls).filterMap Call.attempt?) =
      h.published c ++ (h.step c).registry.log (calls.filterMap Call.attempt?) := by
  have hs := (h.agree_step c).log (calls.filterMap Call.attempt?)
  rw [hs]
  cases hc : c.attempt? with
  | none => simp [hc,published,Registry.log]
  | some a => simp [hc,published,Registry.log]

/-- Over a whole run a follower gets every event that is published. -/
theorem Good.keeps_run (hg : h.Good) (hi : h.followers[i]? = some f)
    (hf : f.Follows h.registry seq) (calls : List (Call κ)) :
    (h.run calls).Keeps i f (seq ++ h.registry.log (calls.filterMap Call.attempt?))
      (.close i ∈ calls) := by
  induction calls generalizing h f seq with
  | nil =>
    rw [List.filterMap_nil,Registry.log,List.append_nil]
    exact ⟨f,hi,hf,.inl f.stays_refl⟩
  | cons c calls ih =>
    obtain ⟨f',hi',hf',hs⟩ := hg.keeps_step hi hf c
    obtain ⟨f'',hi'',hf'',hs'⟩ := ih (hg.step c) hi' hf'
    rw [log_cons,← List.append_assoc]
    refine ⟨f'',hi'',hf'',?_⟩
    rcases hs with hs | rfl
    · exact hs'.imp hs.trans (List.mem_cons_of_mem _)
    · exact .inr List.mem_cons_self

end Hub
end CommandShell
