import Mathlib.Data.Finset.Card
import CommandShell.Proofs.Catalog
import CommandShell.Proofs.NormalPath
import CommandShell.Proofs.Tree.Slots

/-! Trees whose links fit together.
Every node is reached from the root over names, and over one list of names only; its parent link
leads back the same way. -/
namespace CommandShell
namespace Tree

variable {α : Type} {t : Tree α} {q r : List String} {id c : NodeId} {name : String}

def child? (t : Tree α) (id : NodeId) (name : String) : Option NodeId :=
  (t.node? id).bind (·.children[name]?)

def at? (t : Tree α) (q : List String) : Option NodeId := q.foldlM t.child? rootId

/-- What stands where the names lead. -/
def entryAt (t : Tree α) (q : List String) : Option (Entry α) :=
  ((t.at? q).bind t.node?).map fun n => ⟨n.payload,n.implicit⟩

theorem child?_eq_some_iff :
    t.child? id name = some c ↔ ∃ n, t.node? id = some n ∧ n.children[name]? = some c := by
  simp [child?,Option.bind_eq_some_iff]

@[simp] theorem at?_nil (t : Tree α) : t.at? [] = some rootId := rfl

theorem at?_concat (t : Tree α) (q : List String) (name : String) :
    t.at? (q ++ [name]) = (t.at? q).bind fun id => t.child? id name := by
  simp only [at?,List.foldlM_append,List.foldlM_cons,List.foldlM_nil]
  cases q.foldlM t.child? rootId with
  | none => rfl
  | some id => simp

theorem at?_concat_eq_some_iff : t.at? (q ++ [name]) = some c ↔
    ∃ id n, t.at? q = some id ∧ t.node? id = some n ∧ n.children[name]? = some c := by
  simp only [at?_concat,Option.bind_eq_some_iff,child?_eq_some_iff,exists_and_left]

theorem at?_append_eq_none (h : t.at? q = none) (r : List String) : t.at? (q ++ r) = none := by
  induction r using List.reverseRecOn with
  | nil => simpa using h
  | append_singleton r name ih => rw [← List.append_assoc,at?_concat,ih,Option.bind_none]

theorem get?_of_isName (t : Tree α) (id : NodeId) (hn : Path.IsName name) :
    t.get? id name = t.child? id name := by
  simp [get?,child?,hn.1,hn.2.1,hn.2.2]

theorem entryAt_eq_some {n : Node α} (h : t.at? q = some id)
    (hn : t.node? id = some n) : t.entryAt q = some ⟨n.payload,n.implicit⟩ := by
  simp [entryAt,h,hn]

/-- Where a segment leads from `q`. The root is above itself. -/
def turn (q : List String) (name : String) : List String :=
  if name = "/" then []
  else if name = "." then q
  else if name = ".." then q.dropLast
  else q ++ [name]

/-- Links in both directions fit, every node is reached, and no slot is lost. -/
structure Linked (t : Tree α) : Prop where
  root : ∃ n, t.node? rootId = some n ∧ n.parent = none ∧ n.payload = .group ∧ n.implicit = false
  child : ∀ {id n name c}, t.node? id = some n → n.children[name]? = some c →
    Path.IsName name ∧ ∃ m, t.node? c = some m ∧ m.name = name ∧ m.parent = some id
  group : ∀ {id n}, t.node? id = some n → (n.implicit = true ∨ n.children.isEmpty = false) →
    n.payload = .group
  reached : ∀ {id n}, t.node? id = some n → ∃ q, t.at? q = some id
  free : t.FreeExact

namespace Linked

theorem live (ht : t.Linked) (h : t.at? q = some id) : ∃ n, t.node? id = some n := by
  cases q using List.reverseRecOn with
  | nil =>
    obtain ⟨n,hn,-⟩ := ht.root
    exact ⟨n,Option.some.inj h ▸ hn⟩
  | append_singleton q name =>
    obtain ⟨p,n,-,hn,hc⟩ := at?_concat_eq_some_iff.1 h
    obtain ⟨-,m,hm,-⟩ := ht.child hn hc
    exact ⟨m,hm⟩

theorem isName (ht : t.Linked) (h : t.at? q = some id) : ∀ name ∈ q, Path.IsName name := by
  induction q using List.reverseRecOn generalizing id with
  | nil => simp
  | append_singleton q name ih =>
    obtain ⟨p,n,hp,hn,hc⟩ := at?_concat_eq_some_iff.1 h
    intro other hm
    rcases List.mem_append.1 hm with hm | hm
    · exact ih hp other hm
    · rw [List.mem_singleton.1 hm]
      exact (ht.child hn hc).1

theorem at?_ne_root (ht : t.Linked) (q : List String) (name : String) :
    t.at? (q ++ [name]) ≠ some rootId := by
  intro h
  obtain ⟨p,n,-,hn,hc⟩ := at?_concat_eq_some_iff.1 h
  obtain ⟨-,m,hm,-,hp⟩ := ht.child hn hc
  obtain ⟨k,hk,hr,-⟩ := ht.root
  rw [hk] at hm
  obtain rfl := Option.some.inj hm
  rw [hr] at hp
  cases hp

theorem parent (ht : t.Linked) {n : Node α} (h : t.at? (q ++ [name]) = some id)
    (hn : t.node? id = some n) : n.name = name ∧ n.parent = t.at? q := by
  obtain ⟨p,m,hp,hm,hc⟩ := at?_concat_eq_some_iff.1 h
  obtain ⟨-,k,hk,hname,hpar⟩ := ht.child hm hc
  rw [hn] at hk
  obtain rfl := Option.some.inj hk
  exact ⟨hname,hpar.trans hp.symm⟩

theorem at?_inj (ht : t.Linked) (hq : t.at? q = some id) (hr : t.at? r = some id) : q = r := by
  induction q using List.reverseRecOn generalizing r id with
  | nil =>
    cases r using List.reverseRecOn with
    | nil => rfl
    | append_singleton r name =>
      rw [← Option.some.inj hq] at hr
      exact absurd hr (ht.at?_ne_root r name)
  | append_singleton q name ih =>
    cases r using List.reverseRecOn with
    | nil =>
      rw [← Option.some.inj hr] at hq
      exact absurd hq (ht.at?_ne_root q name)
    | append_singleton r other =>
      obtain ⟨n,hn⟩ := ht.live hq
      obtain ⟨hname,hp⟩ := ht.parent hq hn
      obtain ⟨hother,hp'⟩ := ht.parent hr hn
      obtain ⟨p,_,hpq,-⟩ := at?_concat_eq_some_iff.1 hq
      have hqr : q = r := ih hpq (hp'.symm.trans (hp.trans hpq))
      rw [hqr,← hname,hother]

theorem names_eq (ht : t.Linked) {k : Nat} (h : t.at? q = some id) (hk : q.length ≤ k) :
    t.names k id = q := by
  induction q using List.reverseRecOn generalizing id k with
  | nil =>
    obtain ⟨n,hn,hp,-⟩ := ht.root
    rw [← Option.some.inj h]
    cases k <;> simp [names,hn,hp]
  | append_singleton q name ih =>
    obtain ⟨p,m,hp,hm,hc⟩ := at?_concat_eq_some_iff.1 h
    obtain ⟨n,hn⟩ := ht.live h
    obtain ⟨hname,hpar⟩ := ht.parent h hn
    cases k with
    | zero => simp at hk
    | succ k =>
      have hk : q.length ≤ k := by simpa using hk
      simp [names,hn,hpar,hp,ih hp hk,hname]

/-- The nodes on the way down to a node differ, so no way is longer than there are slots. -/
theorem length_lt_size (ht : t.Linked) (h : t.at? q = some id) : q.length < t.slots.size := by
  have hlive : ∀ n, ∃ i, t.at? (q.take n) = some i := by
    intro n
    cases hi : t.at? (q.take n) with
    | some i => exact ⟨i,rfl⟩
    | none =>
      have hnone := at?_append_eq_none hi (q.drop n)
      rw [List.take_append_drop,h] at hnone
      cases hnone
  choose f hf using hlive
  have hmaps : Set.MapsTo f (Finset.range (q.length + 1)) (Finset.range t.slots.size) := by
    intro n _
    obtain ⟨m,hm⟩ := ht.live (hf n)
    have hlt := (Array.getElem?_eq_some_iff.1 (node?_eq_some_iff.1 hm)).1
    simpa using hlt
  have hinj : Set.InjOn f (Finset.range (q.length + 1)) := by
    intro n hn m hm he
    have htake : q.take n = q.take m := ht.at?_inj (hf n) (he ▸ hf m)
    have hlen := congrArg List.length htake
    simp only [Finset.coe_range,Set.mem_Iio,List.length_take] at hn hm hlen
    omega
  have hcard := Finset.card_le_card_of_injOn f hmaps hinj
  simp only [Finset.card_range] at hcard
  omega

theorem fullPath_eq (ht : t.Linked) (h : t.at? q = some id) : t.fullPath id = ⟨true,q⟩ := by
  simp only [fullPath,ht.names_eq h (ht.length_lt_size h).le]

theorem ne_root (ht : t.Linked) (hne : q ≠ []) (h : t.at? q = some id) : id ≠ rootId := by
  rintro rfl
  exact hne (ht.at?_inj h (at?_nil t))

theorem entryAt_eq_none_iff (ht : t.Linked) : t.entryAt q = none ↔ t.at? q = none := by
  cases h : t.at? q with
  | none => simp [entryAt,h]
  | some id =>
    obtain ⟨n,hn⟩ := ht.live h
    simp [entryAt,h,hn]

theorem find?_eq_at? (ht : t.Linked) (b : Bool) (hq : ∀ name ∈ q, Path.IsName name) :
    t.find? rootId ⟨b,q⟩ = t.at? q := by
  obtain ⟨n,hn,-⟩ := ht.root
  have hfold : ∀ id, q.foldlM t.get? id = q.foldlM t.child? id := by
    induction q with
    | nil => intro id; rfl
    | cons name q ih =>
      intro id
      simp only [List.foldlM_cons,get?_of_isName t id (hq name (by simp))]
      exact bind_congr fun c => ih (fun other hm => hq other (by simp [hm])) c
  simp only [find?,ite_self,hn,Option.bind_some,hfold,at?]

theorem get?_up (ht : t.Linked) (hq : t.at? q = some id) : t.get? id ".." = t.at? q.dropLast := by
  obtain ⟨n,hn⟩ := ht.live hq
  have hget : t.get? id ".." = some (n.parent.getD id) := by simp [get?,hn]
  rw [hget]
  cases q using List.reverseRecOn with
  | nil =>
    obtain ⟨m,hm,hp,-⟩ := ht.root
    obtain rfl : rootId = id := Option.some.inj hq
    obtain rfl := Option.some.inj (hn.symm.trans hm)
    simp [hp]
  | append_singleton q name =>
    obtain ⟨p,_,hpq,-⟩ := at?_concat_eq_some_iff.1 hq
    rw [(ht.parent hq hn).2,List.dropLast_concat,hpq]
    rfl

theorem get?_eq_at? (ht : t.Linked) (hq : t.at? q = some id) (name : String) :
    t.get? id name = t.at? (turn q name) := by
  by_cases hup : name = ".."
  · subst hup
    exact ht.get?_up hq
  obtain ⟨n,hn⟩ := ht.live hq
  unfold turn
  split_ifs with hroot hhere
  · simp [get?,hn,hroot]
  · simp [get?,hn,hhere,hq]
  · rw [get?_of_isName t id ⟨hroot,hhere,hup⟩,at?_concat,hq,Option.bind_some]

theorem at?_foldl_turn (ht : t.Linked) {segments : List String} (hq : t.at? q = some id)
    (hc : segments.foldlM t.get? id = some c) : t.at? (segments.foldl turn q) = some c := by
  induction segments generalizing q id with
  | nil => exact hq.trans hc
  | cons name segments ih =>
    rw [List.foldlM_cons,Option.bind_eq_bind,Option.bind_eq_some_iff] at hc
    obtain ⟨next,hnext,hc⟩ := hc
    exact ih ((ht.get?_eq_at? hq name).symm.trans hnext) hc

/-- A walk from the root arrives where its turns lead. -/
theorem at?_turns (ht : t.Linked) {p : Path} (h : t.find? rootId p = some id) :
    t.at? (p.segments.foldl turn []) = some id := by
  obtain ⟨_,-,hwalk⟩ := Option.bind_eq_some_iff.1 h
  rw [ite_self] at hwalk
  exact ht.at?_foldl_turn (at?_nil t) hwalk

end Linked
end Tree
end CommandShell
