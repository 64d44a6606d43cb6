import Mathlib.Data.List.Sort
import CommandShell.Proofs.Tree.Linked

/-! What a tree lists.
Every node is listed once, under its own path, and in the order of the paths. So the list does not
depend on the slots in which the nodes are, and two trees with the same nodes list the same. -/
namespace CommandShell
namespace Tree

variable {α : Type} {t t' : Tree α} {q r : List String} {id i j : NodeId}

namespace Linked

/-- Down to depth `n` the nodes below `id` are those that fewer than `n` names lead to. -/
theorem mem_below_iff (ht : t.Linked) {n : Nat} (hq : t.at? q = some id) :
    j ∈ t.below n id ↔ ∃ s, t.at? (q ++ s) = some j ∧ s.length < n := by
  induction n generalizing q id with
  | zero => simp [below]
  | succ n ih =>
    obtain ⟨m,hm⟩ := ht.live hq
    simp only [below,hm,Option.elim_some,List.mem_cons,List.mem_flatMap,SortedMap.mem_values_iff]
    constructor
    · rintro (rfl | ⟨c,⟨name,hc⟩,hj⟩)
      · exact ⟨[],by simpa using hq,by simp⟩
      · obtain ⟨s,hs,hlt⟩ := (ih (at?_concat_eq_some_iff.2 ⟨id,m,hq,hm,hc⟩)).1 hj
        exact ⟨name :: s,by simpa using hs,by simpa using hlt⟩
    · rintro ⟨s,hs,hlt⟩
      cases s with
      | nil => exact .inl (Option.some.inj ((hs.symm.trans (by rw [List.append_nil])).trans hq))
      | cons name s =>
        rw [List.append_cons q name s] at hs
        cases hc : t.at? (q ++ [name]) with
        | none =>
          have hnone := at?_append_eq_none hc s
          rw [hs] at hnone
          cases hnone
        | some c =>
          obtain ⟨p,k,hp,hk,hkc⟩ := at?_concat_eq_some_iff.1 hc
          obtain rfl := Option.some.inj (hp.symm.trans hq)
          obtain rfl := Option.some.inj (hk.symm.trans hm)
          exact .inr ⟨c,⟨name,hkc⟩,(ih hc).2 ⟨s,hs,by simpa using hlt⟩⟩

theorem mem_below_root_iff (ht : t.Linked) :
    j ∈ t.below t.slots.size rootId ↔ ∃ n, t.node? j = some n := by
  rw [ht.mem_below_iff (at?_nil t)]
  constructor
  · rintro ⟨q,hq,-⟩
    exact ht.live hq
  · rintro ⟨n,hn⟩
    obtain ⟨q,hq⟩ := ht.reached hn
    exact ⟨q,hq,ht.length_lt_size hq⟩

def Before (t : Tree α) (i j : NodeId) : Prop :=
  ∃ q r, t.at? q = some i ∧ t.at? r = some j ∧ q < r

theorem pairwise_below (ht : t.Linked) {n : Nat} (hq : t.at? q = some id) :
    (t.below n id).Pairwise (Before t) := by
  induction n generalizing q id with
  | zero => exact .nil
  | succ n ih =>
    obtain ⟨m,hm⟩ := ht.live hq
    have hchild : ∀ {name c}, (name,c) ∈ m.children.toList → t.at? (q ++ [name]) = some c := by
      intro name c hc
      rw [Std.TreeMap.mem_toList_iff_getElem?_eq_some] at hc
      exact at?_concat_eq_some_iff.2 ⟨id,m,hq,hm,hc⟩
    have hbelow : ∀ {name c j}, (name,c) ∈ m.children.toList → j ∈ t.below n c →
        ∃ s, t.at? (q ++ name :: s) = some j := by
      intro name c j hc hj
      obtain ⟨s,hs,-⟩ := (ht.mem_below_iff (hchild hc)).1 hj
      exact ⟨s,by simpa using hs⟩
    simp only [below,hm,Option.elim_some,SortedMap.values_eq_map,List.flatMap_map]
    rw [List.pairwise_cons,List.pairwise_flatMap]
    refine ⟨fun j hj => ?_,fun e he => ih (hchild he),?_⟩
    · obtain ⟨⟨name,c⟩,hc,hj⟩ := List.mem_flatMap.1 hj
      obtain ⟨s,hs⟩ := hbelow hc hj
      refine ⟨q,_,hq,hs,?_⟩
      have hlt : q ++ [] < q ++ name :: s := List.append_left_lt (List.nil_lt_cons name s)
      rwa [List.append_nil] at hlt
    -- of two children the one with the smaller name comes first, with all that is below it
    · refine m.children.ordered_keys_toList.imp_of_mem fun {a b} ha hb hab i hi j hj => ?_
      obtain ⟨s,hs⟩ := hbelow ha hi
      obtain ⟨s',hs'⟩ := hbelow hb hj
      have hlt : a.1 < b.1 := compareOfLessAndEq_eq_lt.1 hab
      exact ⟨_,_,hs,hs',List.append_left_lt (List.cons_lt_cons_iff.2 (.inl hlt))⟩

theorem mem_entries_iff (ht : t.Linked) {e : Path × Payload α} : e ∈ t.entries ↔
    ∃ id n, t.node? id = some n ∧ t.fullPath id = e.1 ∧ n.payload = e.2 := by
  simp only [entries,List.mem_filterMap,Option.map_eq_some_iff]
  constructor
  · rintro ⟨id,-,n,hn,rfl⟩
    exact ⟨id,n,hn,rfl,rfl⟩
  · rintro ⟨id,n,hn,hp,hx⟩
    exact ⟨id,ht.mem_below_root_iff.2 ⟨n,hn⟩,n,hn,Prod.ext hp hx⟩

theorem pairwise_entries (ht : t.Linked) :
    t.entries.Pairwise fun e e' => e.1.segments < e'.1.segments := by
  rw [entries,List.pairwise_filterMap]
  refine (ht.pairwise_below (at?_nil t)).imp ?_
  rintro i j ⟨q,r,hq,hr,hlt⟩ e he e' he'
  obtain ⟨n,-,rfl⟩ := Option.map_eq_some_iff.1 he
  obtain ⟨m,-,rfl⟩ := Option.map_eq_some_iff.1 he'
  rw [ht.fullPath_eq hq,ht.fullPath_eq hr]
  exact hlt

/-- Where the same is listed it is listed in the same order. -/
theorem entries_eq (ht : t.Linked) (ht' : t'.Linked) (h : ∀ e, e ∈ t.entries ↔ e ∈ t'.entries) :
    t.entries = t'.entries := by
  have hasymm : Std.Antisymm fun e e' : Path × Payload α => e.1.segments < e'.1.segments :=
    ⟨fun _ _ hlt hgt => absurd hgt (List.lt_asymm hlt)⟩
  have hirrefl : Std.Irrefl fun e e' : Path × Payload α => e.1.segments < e'.1.segments :=
    ⟨fun _ => List.lt_irrefl _⟩
  exact ht.pairwise_entries.eq_of_mem_iff ht'.pairwise_entries h

end Linked
end Tree
end CommandShell
