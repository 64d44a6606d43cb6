import CommandShell.Proofs.Tree.Entries

/-! What a tree shows to those who know no slots.
A node is named by a path and seen by what it holds, and its children by their names. Two trees that
hold the same at the same names show the same, in whatever slots their nodes are. -/
namespace CommandShell
namespace Tree

variable {α : Type} {t u : Tree α} {q : List String} {i j : NodeId}

/-- A node without its slot. -/
structure View (α : Type) where
  path : Path
  payload : Payload α
  implicit : Bool
  children : List String

def view (t : Tree α) (p : Path) : Option (View α) :=
  (t.find? rootId p).bind fun id => (t.node? id).map fun n =>
    ⟨t.fullPath id,n.payload,n.implicit,n.children.keys⟩

/-- The two trees cannot be told apart by paths. -/
structure SameShape (t u : Tree α) : Prop where
  view : ∀ p, t.view p = u.view p
  entries : t.entries = u.entries
  size : t.size = u.size

theorem size_eq_countP (t : Tree α) :
    t.size = (List.range t.slots.size).countP fun id => (t.node? id).isSome := by
  have hslots : (List.range t.slots.size).map t.node? = t.slots.toList := by
    refine List.ext_getElem (by simp) fun id _ hid => ?_
    rw [Array.length_toList] at hid
    simp [node?,Array.getElem?_eq_getElem hid]
  rw [size,← Array.countP_toList,← hslots,List.countP_map]
  rfl

namespace Linked

theorem length_entries (ht : t.Linked) : t.entries.length = t.size := by
  have hnodup : (t.below t.slots.size rootId).Nodup := by
    refine (ht.pairwise_below (at?_nil t)).imp ?_
    rintro i _ ⟨q,r,hq,hr,hlt⟩ rfl
    exact List.lt_irrefl r (ht.at?_inj hq hr ▸ hlt)
  have hperm : (t.below t.slots.size rootId).Perm
      ((List.range t.slots.size).filter fun id => (t.node? id).isSome) := by
    rw [List.perm_ext_iff_of_nodup hnodup (List.nodup_range.filter _)]
    intro id
    rw [ht.mem_below_root_iff,List.mem_filter,List.mem_range,Option.isSome_iff_exists]
    exact ⟨fun ⟨n,hn⟩ => ⟨(Array.getElem?_eq_some_iff.1 (node?_eq_some_iff.1 hn)).1,n,hn⟩,And.right⟩
  have hlive : ∀ id ∈ t.below t.slots.size rootId, (t.node? id).isSome := fun id hid =>
    Option.isSome_iff_exists.2 (ht.mem_below_root_iff.1 hid)
  rw [size_eq_countP,List.countP_eq_length_filter,← hperm.length_eq,entries,
    List.length_filterMap_eq_countP,List.countP_eq_length]
  simpa only [Option.isSome_map] using hlive

theorem entryAt_nil (ht : t.Linked) : t.entryAt [] = some ⟨.group,false⟩ := by
  obtain ⟨n,hn,-,hp,hi⟩ := ht.root
  rw [entryAt_eq_some (at?_nil t) hn,hp,hi]

section Shape

variable (ht : t.Linked) (hu : u.Linked) (he : ∀ q, t.entryAt q = u.entryAt q)
include ht hu he

theorem at?_eq_none_iff_of_entryAt (q : List String) : t.at? q = none ↔ u.at? q = none := by
  rw [← ht.entryAt_eq_none_iff,← hu.entryAt_eq_none_iff,he]

theorem exists_at?_of_entryAt (hi : t.at? q = some i) : ∃ j, u.at? q = some j := by
  refine Option.ne_none_iff_exists'.1 ?_
  rw [ne_eq,← ht.at?_eq_none_iff_of_entryAt hu he,hi]
  exact Option.some_ne_none i

/-- Walks that begin at one list of names lead to one list of names. -/
theorem exists_foldlM_eq (segments : List String) (hi : t.at? q = some i)
    (hj : u.at? q = some j) :
    ∃ r, segments.foldlM t.get? i = t.at? r ∧ segments.foldlM u.get? j = u.at? r := by
  induction segments generalizing q i j with
  | nil => exact ⟨q,hi.symm,hj.symm⟩
  | cons name segments ih =>
    rw [List.foldlM_cons,List.foldlM_cons,ht.get?_eq_at? hi,hu.get?_eq_at? hj]
    cases hc : t.at? (turn q name) with
    | none => exact ⟨_,hc.symm,by rw [(ht.at?_eq_none_iff_of_entryAt hu he _).1 hc]; rfl⟩
    | some c =>
      obtain ⟨d,hd⟩ := ht.exists_at?_of_entryAt hu he hc
      rw [hd]
      exact ih hc hd

theorem exists_find?_eq (p : Path) :
    ∃ r, t.find? rootId p = t.at? r ∧ u.find? rootId p = u.at? r := by
  obtain ⟨n,hn,-⟩ := ht.root
  obtain ⟨m,hm,-⟩ := hu.root
  simp only [find?,ite_self,hn,hm,Option.bind_some]
  exact ht.exists_foldlM_eq hu he p.segments (at?_nil t) (at?_nil u)

theorem view_eq_of_at? {n m : Node α} (hi : t.at? q = some i) (hj : u.at? q = some j)
    (hn : t.node? i = some n) (hm : u.node? j = some m) :
    (⟨t.fullPath i,n.payload,n.implicit,n.children.keys⟩ : View α) =
      ⟨u.fullPath j,m.payload,m.implicit,m.children.keys⟩ := by
  have hentry := he q
  rw [entryAt_eq_some hi hn,entryAt_eq_some hj hm] at hentry
  obtain ⟨hpayload,himplicit⟩ := Entry.mk.inj (Option.some.inj hentry)
  have hkeys : n.children.keys = m.children.keys := by
    refine SortedMap.keys_eq fun name => ?_
    have hname := ht.at?_eq_none_iff_of_entryAt hu he (q ++ [name])
    simpa only [at?_concat,hi,hj,child?,hn,hm,Option.bind_some] using hname
  rw [ht.fullPath_eq hi,hu.fullPath_eq hj,hpayload,himplicit,hkeys]

theorem view_eq (p : Path) : t.view p = u.view p := by
  obtain ⟨r,hr,hr'⟩ := ht.exists_find?_eq hu he p
  rw [view,view,hr,hr']
  cases hi : t.at? r with
  | none => rw [(ht.at?_eq_none_iff_of_entryAt hu he r).1 hi]; rfl
  | some i =>
    obtain ⟨j,hj⟩ := ht.exists_at?_of_entryAt hu he hi
    obtain ⟨n,hn⟩ := ht.live hi
    obtain ⟨m,hm⟩ := hu.live hj
    simp only [hj,Option.bind_some,hn,hm,Option.map_some]
    rw [ht.view_eq_of_at? hu he hi hj hn hm]

theorem mem_entries_of_entryAt {e : Path × Payload α} (h : e ∈ t.entries) : e ∈ u.entries := by
  obtain ⟨i,n,hn,hp,hx⟩ := ht.mem_entries_iff.1 h
  obtain ⟨q,hi⟩ := ht.reached hn
  obtain ⟨j,hj⟩ := ht.exists_at?_of_entryAt hu he hi
  obtain ⟨m,hm⟩ := hu.live hj
  obtain ⟨hpath,hpayload,-,-⟩ := View.mk.inj (ht.view_eq_of_at? hu he hi hj hn hm)
  exact hu.mem_entries_iff.2 ⟨j,m,hm,hpath.symm.trans hp,hpayload.symm.trans hx⟩

theorem sameShape : t.SameShape u := by
  have hentries : t.entries = u.entries := ht.entries_eq hu fun _ =>
    ⟨ht.mem_entries_of_entryAt hu he,hu.mem_entries_of_entryAt ht fun q => (he q).symm⟩
  exact ⟨ht.view_eq hu he,hentries,by rw [← ht.length_entries,← hu.length_entries,hentries]⟩

end Shape
end Linked
end Tree
end CommandShell
