import CommandShell.Proofs.PathText
import CommandShell.Proofs.Tree.Refinement

/-! The slots of a tree after any history of calls.
The links fit in both directions, nothing is lost and nothing is left behind, and no slot in use is
ever given out again. -/
namespace CommandShell

namespace Catalog

variable {α : Type} {M : Catalog α} {p : Path} {q : List String}

/-- All names are proper texts, and an implicit group is there for the sake of what is below it. -/
structure Tidy (M : Catalog α) : Prop where
  named : ∀ {q e}, M.entryAt q = some e → "" ∉ q
  needed : ∀ {q e}, M.entryAt q = some e → e.implicit = true →
    ∃ name e', M.entryAt (q ++ [name]) = some e'

theorem tidy_empty : (empty : Catalog α).Tidy where
  named h := by simp at h
  needed h := by simp at h

theorem Tidy.insert (hM : M.Tidy) (x : Payload α) (hne : q ≠ []) (hfree : M.entryAt q = none)
    (hc : ∀ r ∈ above q, M.isCommand r = false) (hq : "" ∉ q) :
    (M.insert q x hne hfree hc).Tidy := by
  have hat := entryAt_insert M x hne hfree hc
  refine ⟨?named,?needed⟩
  case named =>
    intro r e he
    rw [hat] at he
    split_ifs at he with hr hr
    · exact hr ▸ hq
    · exact fun hm => hq ((mem_above_iff.1 hr.1).2.1.subset hm)
    · exact hM.named he
  case needed =>
    intro r e he hi
    rw [hat] at he
    split_ifs at he with hr hr
    · obtain rfl := Option.some.inj he
      cases hi
    -- a group made on the way has the next name on the way below it
    · obtain ⟨hrne,⟨s,rfl⟩,hlt⟩ := mem_above_iff.1 hr.1
      have hs : s ≠ [] := by
        rintro rfl
        simp at hlt
      obtain ⟨name,s,rfl⟩ := List.exists_cons_of_ne_nil hs
      refine ⟨name,?_⟩
      simp only [hat]
      split_ifs with h1 h2
      · exact ⟨_,rfl⟩
      · exact ⟨_,rfl⟩
      · have habove : r ++ [name] ∈ above (r ++ name :: s) :=
          mem_above_iff.2 ⟨by simp,by simp,h1⟩
        exact Option.ne_none_iff_exists'.1 fun hnone => h2 ⟨habove,hnone⟩
    · obtain ⟨name,e',he'⟩ := hM.needed he hi
      refine ⟨name,?_⟩
      rw [hat]
      split_ifs with h1 h2
      · exact ⟨_,rfl⟩
      · rw [he'] at h2
        cases h2.2
      · exact ⟨e',he'⟩

theorem mem_lost_of_children {r : List String} {e : Entry α} (he : M.entryAt r = some e)
    (hi : e.implicit = true) (hr : r ≠ []) (hq : ¬q <+: r) {name : String}
    (hname : q <+: r ++ [name] ∨ r ++ [name] ∈ M.lost q)
    (hall : ∀ other e', M.entryAt (r ++ [other]) = some e' →
      q <+: r ++ [other] ∨ r ++ [other] ∈ M.lost q) : r ∈ M.lost q := by
  have hpre : ∀ {other}, (q <+: r ++ [other] ∨ r ++ [other] ∈ M.lost q) → r ++ [other] <+: q := by
    rintro other (h | h)
    · rcases List.prefix_concat_iff.1 h with h | h
      · rw [h]
      · exact absurd h hq
    · exact (mem_above_iff.1 (mem_lost_iff.1 h).1).2.1
  have hspent : M.spent q r = true := by
    refine spent_iff.2 ⟨⟨e,he,hi⟩,fun k e' hk hd => ?_⟩
    rcases List.eq_nil_or_concat' k with rfl | ⟨init,other,rfl⟩
    · simp at hk
    · obtain rfl : init = r := by simpa using hd
      exact hpre (hall other e' hk)
  have habove : r ∈ above q := by
    have hle := hpre hname
    refine mem_above_iff.2 ⟨hr,(List.prefix_append r [name]).trans hle,?_⟩
    rintro rfl
    exact concat_not_isPrefix r name hle
  refine mem_lost_iff.2 ⟨habove,fun s hs hrs => ?_⟩
  by_cases hsr : s = r
  · rw [hsr]
    exact hspent
  obtain ⟨-,hsq,hne⟩ := mem_above_iff.1 hs
  have hlt := length_lt_of_isPrefix hrs (Ne.symm hsr)
  rcases hname with h | h
  · have hlen := (length_lt_of_isPrefix hsq hne).trans_le h.length_le
    simp only [List.length_append,List.length_singleton] at hlen
    omega
  · obtain ⟨-,hlost⟩ := mem_lost_iff.1 h
    exact hlost s hs (concat_prefix_of_length_lt (hpre (.inr h)) hsq hlt)

theorem Tidy.erase (hM : M.Tidy) (q : List String) : (M.erase q).Tidy := by
  have hat := entryAt_erase M q
  refine ⟨?named,?needed⟩
  case named =>
    intro r e he
    rw [hat] at he
    split_ifs at he
    exact hM.named he
  case needed =>
    intro r e he hi
    rw [hat] at he
    split_ifs at he with hkept
    obtain ⟨hq,hl⟩ := not_or.1 hkept
    obtain ⟨name,e',he'⟩ := hM.needed he hi
    have hr : r ≠ [] := by
      rintro rfl
      simp at he
    by_contra hcon
    -- then every child goes, and with the last of them the group
    have hgone : ∀ other e', M.entryAt (r ++ [other]) = some e' →
        q <+: r ++ [other] ∨ r ++ [other] ∈ M.lost q := by
      intro other e' h
      by_contra hstay
      exact hcon ⟨other,e',by rw [hat,if_neg hstay,h]⟩
    exact hl (mem_lost_of_children he hi hr hq (hgone name e' he') hgone)

theorem Tidy.add (hM : M.Tidy) (hp : p.Parsed) {x : Payload α} {M' : Catalog α}
    (h : M.add p x = .ok M') : M'.Tidy := by
  have hq : "" ∉ p.fromRoot.segments := fun hm => (Path.plain_fromRoot hp "" hm).1 rfl
  obtain ⟨-,_,_,_,rfl⟩ := exists_insert_of_add h
  exact hM.insert x _ _ _ hq

theorem Tidy.remove (hM : M.Tidy) {x : Payload α} {M' : Catalog α}
    (h : M.remove p = .ok (x,M')) : M'.Tidy := by
  simp only [Catalog.remove] at h
  split_ifs at h
  split at h
  · cases h
  · obtain ⟨-,rfl⟩ := Prod.mk.inj (Except.ok.inj h)
    exact hM.erase _

end Catalog

namespace Change

variable {α : Type}

theorem tidy_onCatalog {M : Catalog α} (hM : M.Tidy) {c : Change α} (hc : c.path.Parsed) :
    (c.onCatalog M).Tidy := by
  cases c with
  | add p x =>
    simp only [onCatalog]
    cases h : M.add p x with
    | error e => exact hM
    | ok M' => exact hM.add hc h
  | remove p =>
    simp only [onCatalog]
    cases h : M.remove p with
    | error e => exact hM
    | ok r => exact hM.remove h

theorem tidy_foldl (history : List (Change α)) {M : Catalog α} (hM : M.Tidy)
    (hh : ∀ c ∈ history, c.path.Parsed) : (history.foldl onCatalog M).Tidy := by
  induction history generalizing M with
  | nil => exact hM
  | cons c history ih =>
    exact ih (tidy_onCatalog hM (hh c (by simp))) fun d hd => hh d (by simp [hd])

end Change

namespace Tree

variable {α : Type} {t t' : Tree α} {id j : NodeId} {n : Node α} {x : Payload α}

section Fresh

/-- A node that was there stays, with its name, its parent and its payload. -/
def Keeps (t t' : Tree α) : Prop :=
  ∀ j n, t.node? j = some n → ∃ k, t'.node? j = some k ∧ Alike k n

theorem Keeps.refl (t : Tree α) : t.Keeps t := fun _ n hj => ⟨n,hj,alike_children n _⟩

theorem Keeps.trans {t t' u : Tree α} (h : t.Keeps t') (h' : t'.Keeps u) : t.Keeps u := by
  intro j n hj
  obtain ⟨k,hk,ha⟩ := h j n hj
  obtain ⟨l,hl,hb⟩ := h' j k hk
  exact ⟨l,hl,hb.name.trans ha.name,hb.parent.trans ha.parent,hb.payload.trans ha.payload,
    hb.implicit.trans ha.implicit⟩

theorem Keeps.node?_eq_none (h : t.Keeps t') (hj : t'.node? j = none) : t.node? j = none := by
  cases hn : t.node? j with
  | none => rfl
  | some n =>
    obtain ⟨k,hk,-⟩ := h j n hn
    rw [hj] at hk
    cases hk

theorem keeps_place (hf : t.FreeExact) (m : Node α) : t.Keeps (t.place m).2 := by
  intro j n hj
  have hne : j ≠ (t.place m).1 := by
    rintro rfl
    rw [node?_place_fst hf] at hj
    cases hj
  exact ⟨n,by rw [node?_place hf,if_neg hne,hj],alike_children n _⟩

theorem freeExact_attach (hf : t.FreeExact) (p : NodeId) (name : String) (x : Payload α)
    (implicit : Bool) : (t.attach p name x implicit).2.FreeExact :=
  freeExact_modifyNode (freeExact_place hf _) _ _

theorem keeps_attach (hf : t.FreeExact) (p : NodeId) (name : String) (x : Payload α)
    (implicit : Bool) : t.Keeps (t.attach p name x implicit).2 := by
  refine (keeps_place hf ⟨name,x,some p,∅,implicit⟩).trans fun j n hj => ?_
  simp only [attach,node?_modifyNode,hj]
  split_ifs
  · exact ⟨_,rfl,alike_children n _⟩
  · exact ⟨n,rfl,alike_children n _⟩

theorem keeps_attachGroups (names : List String) (hf : t.FreeExact) (p : NodeId) :
    t.Keeps (t.attachGroups p names).2 ∧ (t.attachGroups p names).2.FreeExact := by
  induction names generalizing t p with
  | nil => exact ⟨.refl t,hf⟩
  | cons name names ih =>
    obtain ⟨hk,hf'⟩ := ih (freeExact_attach hf p name .group true) (t.attach p name .group true).1
    rw [attachGroups_cons]
    exact ⟨(keeps_attach hf p name .group true).trans hk,hf'⟩

/-- A new node gets a slot that was empty, and so do the groups made on the way to it. -/
theorem keeps_add (hf : t.FreeExact) {p : Path} (h : t.add p x = .ok (id,t')) :
    t.node? id = none ∧ t.Keeps t' := by
  have hup : p.fromRoot.segments.head? ≠ some ".." := by
    intro hup
    simp [add,locate,hup,bind,Except.bind] at h
  rcases List.eq_nil_or_concat' p.fromRoot.segments with hnil | ⟨init,leaf,hq⟩
  · simp [add,locate_eq hup,hnil,bind,Except.bind,throw,throwThe,MonadExceptOf.throw] at h
  rw [add_eq hup hq] at h
  split at h
  · cases h
  · rename_i last missing _
    split_ifs at h
    obtain ⟨rfl,rfl⟩ := Prod.mk.inj (Except.ok.inj h)
    obtain ⟨hk,hf'⟩ := keeps_attachGroups missing hf last
    exact ⟨hk.node?_eq_none (node?_place_fst hf' _),hk.trans (keeps_attach hf' _ _ _ _)⟩

end Fresh

def Up (t : Tree α) (id p : NodeId) : Prop := ∃ n, t.node? id = some n ∧ n.parent = some p

theorem Linked.shorter (ht : t.Linked) {p : NodeId} (h : Relation.TransGen t.Up id p) :
    ∃ q r, t.at? q = some id ∧ t.at? r = some p ∧ r.length < q.length := by
  have hstep : ∀ {i k}, t.Up i k →
      ∃ q name, t.at? (q ++ [name]) = some i ∧ t.at? q = some k := by
    rintro i k ⟨n,hn,hp⟩
    obtain ⟨q,hq⟩ := ht.reached hn
    rcases List.eq_nil_or_concat' q with rfl | ⟨q,name,rfl⟩
    · obtain ⟨m,hm,hnone,-⟩ := ht.root
      rw [← Option.some.inj hq,hm] at hn
      rw [← Option.some.inj hn,hnone] at hp
      cases hp
    · exact ⟨q,name,hq,(ht.parent hq hn).2.symm.trans hp⟩
  induction h with
  | single h =>
    obtain ⟨q,name,hq,hp⟩ := hstep h
    exact ⟨_,_,hq,hp,by simp⟩
  | tail _ h ih =>
    obtain ⟨q,r,hq,hr,hlt⟩ := ih
    obtain ⟨s,name,hs,hp⟩ := hstep h
    rw [ht.at?_inj hr hs,List.length_append,List.length_singleton] at hlt
    exact ⟨q,s,hq,hp,by omega⟩

theorem below_root {q : List String} (h : t.at? q = some id) :
    t.Below rootId id := by
  induction q using List.reverseRecOn generalizing id with
  | nil =>
    rw [← Option.some.inj h]
    exact .refl
  | append_singleton q name ih =>
    obtain ⟨p,n,hp,hn,hc⟩ := at?_concat_eq_some_iff.1 h
    exact (ih hp).tail ⟨name,child?_eq_some_iff.2 ⟨n,hn,hc⟩⟩

/-- All that holds of the slots, their links and the list of empty ones. -/
structure WellFormed (t : Tree α) : Prop where
  root : ∃ n, t.node? rootId = some n ∧ n.payload = .group ∧ n.parent = none
  parent : ∀ id n, t.node? id = some n → id ≠ rootId → ∃ p m, n.parent = some p ∧
    t.node? p = some m ∧ m.payload = .group ∧ m.children[n.name]? = some id
  child : ∀ id n name c, t.node? id = some n → n.children[name]? = some c →
    ∃ m, t.node? c = some m ∧ m.name = name ∧ m.parent = some id
  acyclic : ∀ id, ¬Relation.TransGen t.Up id id
  reached : ∀ id n, t.node? id = some n → t.Below rootId id
  /-- The root alone has no name. -/
  named : ∀ id n, t.node? id = some n → id ≠ rootId → n.name ≠ "" ∧ Path.IsName n.name
  leaf : ∀ id n c, t.node? id = some n → n.payload = .command c → n.children.isEmpty = true
  needed : ∀ id n, t.node? id = some n → n.implicit = true → n.children.isEmpty = false
  free : t.free.Nodup ∧ ∀ id, id ∈ t.free ↔ t.slots[id]? = some none

/-- A live node other than the root, seen from its parent. -/
theorem Linked.above (ht : t.Linked) {n : Node α} (hn : t.node? id = some n) (hid : id ≠ rootId) :
    ∃ q p m, t.at? (q ++ [n.name]) = some id ∧ n.parent = some p ∧ t.node? p = some m ∧
      m.children[n.name]? = some id := by
  obtain ⟨q,hq⟩ := ht.reached hn
  rcases List.eq_nil_or_concat' q with rfl | ⟨q,name,rfl⟩
  · exact absurd (Option.some.inj hq).symm hid
  · obtain ⟨p,m,hp,hm,hc⟩ := at?_concat_eq_some_iff.1 hq
    obtain ⟨rfl,hpar⟩ := ht.parent hq hn
    exact ⟨q,p,m,hq,hpar.trans hp,hm,hc⟩

theorem isEmpty_children {m : Node α} {name : String} (hc : m.children[name]? = some id) :
    m.children.isEmpty = false := by
  rw [← Bool.not_eq_true,SortedMap.isEmpty_iff]
  intro hnone
  rw [hnone] at hc
  cases hc

section Shown

variable {M : Catalog α} (h : t.Shows M)
include h

theorem Shows.entryAt_node {q : List String} {name : String} {n : Node α}
    (hq : t.at? (q ++ [name]) = some id) (hn : t.node? id = some n) :
    M.entryAt (q ++ [name]) = some ⟨n.payload,n.implicit⟩ := by
  rw [← h.entry _ (by simp),entryAt_eq_some hq hn]

/-- An entry below another is that of a child of the other. -/
theorem Shows.child_of_entry {q : List String} {other : String} {n : Node α} {e : Entry α}
    (hq : t.at? q = some id) (hn : t.node? id = some n)
    (he : M.entryAt (q ++ [other]) = some e) : ∃ c, n.children[other]? = some c := by
  have hsome : t.at? (q ++ [other]) ≠ none := by
    rw [ne_eq,← h.linked.entryAt_eq_none_iff,h.entry _ (by simp),he]
    exact Option.some_ne_none e
  obtain ⟨c,hc⟩ := Option.ne_none_iff_exists'.1 hsome
  obtain ⟨i,k,hi,hk,hkc⟩ := at?_concat_eq_some_iff.1 hc
  rw [hq] at hi
  obtain rfl := Option.some.inj hi
  obtain rfl := Option.some.inj (hn.symm.trans hk)
  exact ⟨c,hkc⟩

theorem Shows.wellFormed (hM : M.Tidy) : t.WellFormed := by
  have ht := h.linked
  refine ⟨?root,?parent,fun id n name c hn hc => (ht.child hn hc).2,?acyclic,?reached,?named,?leaf,
    ?needed,ht.free⟩
  case root =>
    obtain ⟨n,hn,hp,hg,-⟩ := ht.root
    exact ⟨n,hn,hg,hp⟩
  case parent =>
    intro id n hn hid
    obtain ⟨-,p,m,-,hp,hm,hc⟩ := ht.above hn hid
    exact ⟨p,m,hp,hm,ht.group hm (.inr (isEmpty_children hc)),hc⟩
  case acyclic =>
    intro id hloop
    obtain ⟨q,r,hq,hr,hlt⟩ := ht.shorter hloop
    rw [ht.at?_inj hq hr] at hlt
    exact lt_irrefl _ hlt
  case reached =>
    intro id n hn
    obtain ⟨q,hq⟩ := ht.reached hn
    exact below_root hq
  case named =>
    intro id n hn hid
    obtain ⟨q,p,m,hq,-,hm,hc⟩ := ht.above hn hid
    refine ⟨fun he => ?_,(ht.child hm hc).1⟩
    exact hM.named (h.entryAt_node hq hn) (by simp [he])
  case leaf =>
    intro id n c hn hc
    by_contra hne
    have hg := ht.group hn (.inr (Bool.eq_false_of_not_eq_true hne))
    rw [hc] at hg
    cases hg
  case needed =>
    intro id n hn hi
    by_cases hid : id = rootId
    · obtain ⟨m,hm,-,-,hf⟩ := ht.root
      rw [hid,hm] at hn
      rw [← Option.some.inj hn,hf] at hi
      cases hi
    · obtain ⟨q,-,-,hq,-⟩ := ht.above hn hid
      obtain ⟨other,e,he⟩ := hM.needed (h.entryAt_node hq hn) hi
      obtain ⟨c,hc⟩ := h.child_of_entry hq hn he
      exact isEmpty_children hc

end Shown

/-- After every history of calls, failed ones included, the tree is well formed, and whatever is
added next gets a slot that no node has: all nodes that are there stay what they are. -/
theorem wellFormed_after (history : List (Change α)) (hh : ∀ c ∈ history, c.path.Parsed) :
    let t := history.foldl Change.onTree empty
    t.WellFormed ∧ ∀ p x id t', t.add p x = .ok (id,t') → t.node? id = none ∧ t.Keeps t' := by
  intro t
  have h : t.Shows (history.foldl Change.onCatalog Catalog.empty) :=
    Change.shows_foldl history shows_empty hh
  exact ⟨h.wellFormed (Change.tidy_foldl history Catalog.tidy_empty hh),
    fun p x id t' hadd => keeps_add h.linked.free hadd⟩

/-- Two slots become free, and the next call takes one of them; the calls below a command and at a
missing place fail. -/
def regrowth : List (Change Nat) :=
  [.add ⟨true,["a","b"]⟩ (.command 0),.remove ⟨true,["a","b"]⟩,.add ⟨true,["c"]⟩ (.command 1),
    .add ⟨true,["c","d"]⟩ (.command 2),.remove ⟨true,["a","b"]⟩]

theorem wellFormed_after_regrowth :
    (∀ c ∈ regrowth, c.path.Parsed) ∧ (regrowth.foldl Change.onTree empty).WellFormed ∧
      ∀ p x id t', (regrowth.foldl Change.onTree empty).add p x = .ok (id,t') →
        (regrowth.foldl Change.onTree empty).node? id = none ∧
          (regrowth.foldl Change.onTree empty).Keeps t' := by
  have hh : ∀ c ∈ regrowth, c.path.Parsed := by
    intro c hc
    simp only [regrowth,List.mem_cons,List.not_mem_nil,or_false] at hc
    rcases hc with rfl | rfl | rfl | rfl | rfl
    · exact ⟨"/a/b",by decide +kernel⟩
    · exact ⟨"/a/b",by decide +kernel⟩
    · exact ⟨"/c",by decide +kernel⟩
    · exact ⟨"/c/d",by decide +kernel⟩
    · exact ⟨"/a/b",by decide +kernel⟩
  exact ⟨hh,wellFormed_after regrowth hh⟩

end Tree
end CommandShell
