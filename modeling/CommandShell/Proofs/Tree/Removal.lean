import CommandShell.Proofs.Tree.Linked

/-! Removing from a tree.
A node goes with all that is below it, and then the implicit groups above it that are left empty.
The links that stay fit together after each of these steps. -/
namespace CommandShell
namespace Tree

open Catalog

variable {α : Type} {t : Tree α} {q r : List String} {id j : NodeId} {n : Node α}

def Below (t : Tree α) (id j : NodeId) : Prop :=
  Relation.ReflTransGen (fun i j => ∃ name, t.child? i name = some j) id j

theorem child?_vacate_of_ne {i : NodeId} (h : i ≠ id) (name : String) :
    (t.vacate id).child? i name = t.child? i name := by
  simp [child?,node?_vacate,h]

/-- What lies below a node can be reached without passing `id`, or else from a child of `id`. -/
theorem below_vacate (id : NodeId) {i : NodeId} (h : t.Below i j) :
    j = id ∨ (t.vacate id).Below i j ∨
      ∃ c name, t.child? id name = some c ∧ (t.vacate id).Below c j := by
  induction h with
  | refl => exact .inr (.inl .refl)
  | @tail k j _ hk ih =>
    obtain ⟨name,hname⟩ := hk
    by_cases hid : k = id
    · subst hid
      exact .inr (.inr ⟨j,name,hname,.refl⟩)
    · have hstep : ∃ name, (t.vacate id).child? k name = some j :=
        ⟨name,by rw [child?_vacate_of_ne hid,hname]⟩
      rcases ih with rfl | h | ⟨c,other,hc,h⟩
      · exact absurd rfl hid
      · exact .inr (.inl (h.tail hstep))
      · exact .inr (.inr ⟨c,other,hc,h.tail hstep⟩)

theorem below_of_vacate {i : NodeId} (h : (t.vacate id).Below i j) : t.Below i j := by
  refine Relation.ReflTransGen.mono (fun k l hk => ?_) _ _ h
  obtain ⟨name,hname⟩ := hk
  refine ⟨name,?_⟩
  by_cases hid : k = id
  · simp [child?,node?_vacate,hid] at hname
  · rwa [child?_vacate_of_ne hid] at hname

theorem eq_of_below {i : NodeId} (hid : t.node? id = none) (h : t.Below id i) : i = id := by
  cases Relation.ReflTransGen.cases_head h with
  | inl h => exact h.symm
  | inr h =>
    obtain ⟨c,⟨name,hc⟩,-⟩ := h
    simp [child?,hid] at hc

theorem node?_release (t : Tree α) (stack : List NodeId) (j : NodeId) :
    ((∃ i ∈ stack, t.Below i j) → (t.release stack).node? j = none) ∧
      ((¬∃ i ∈ stack, t.Below i j) → (t.release stack).node? j = t.node? j) := by
  fun_induction release t stack with
  | case1 t => simp
  | case2 t id stack hid ih =>
    refine ⟨?_,fun h => ih.2 ?_⟩
    · rintro ⟨i,hi,hb⟩
      by_cases hs : ∃ i ∈ stack, t.Below i j
      · exact ih.1 hs
      · rcases List.mem_cons.1 hi with rfl | hi
        · rw [ih.2 hs,eq_of_below hid hb,hid]
        · exact absurd ⟨i,hi,hb⟩ hs
    · rintro ⟨i,hi,hb⟩
      exact h ⟨i,List.mem_cons_of_mem _ hi,hb⟩
  | case3 t id stack n hid hlt ih =>
    have hchild : ∀ c, c ∈ n.children.values.reverse ↔ ∃ name, t.child? id name = some c := by
      simp [child?,hid,SortedMap.mem_values_iff]
    refine ⟨?_,fun h => ?_⟩
    · rintro ⟨i,hi,hb⟩
      by_cases hj : j = id
      · subst hj
        by_cases hs : ∃ i ∈ n.children.values.reverse ++ stack, (t.vacate j).Below i j
        · exact ih.1 hs
        · rw [ih.2 hs,node?_vacate,if_pos rfl]
      · refine ih.1 ?_
        rcases below_vacate id hb with h | h | ⟨c,name,hc,h⟩
        · exact absurd h hj
        · rcases List.mem_cons.1 hi with rfl | hi
          · have hempty : (t.vacate i).node? i = none := by simp [node?_vacate]
            exact absurd (eq_of_below hempty h) hj
          · exact ⟨i,by simp [hi],h⟩
        · exact ⟨c,List.mem_append_left _ ((hchild c).2 ⟨name,hc⟩),h⟩
    · have hj : j ≠ id := by
        rintro rfl
        exact h ⟨j,by simp,.refl⟩
      rw [ih.2,node?_vacate,if_neg hj]
      rintro ⟨i,hi,hb⟩
      rcases List.mem_append.1 hi with hi | hi
      · exact h ⟨id,by simp,.head ((hchild i).1 hi) (below_of_vacate hb)⟩
      · exact h ⟨i,by simp [hi],below_of_vacate hb⟩

theorem freeExact_release (hf : t.FreeExact) (stack : List NodeId) :
    (t.release stack).FreeExact := by
  fun_induction release t stack with
  | case1 => exact hf
  | case2 t id stack hid ih => exact ih hf
  | case3 t id stack n hid hlt ih => exact ih (freeExact_vacate hf hid)

theorem node?_unlink (t : Tree α) (p : NodeId) (name : String) (j : NodeId) :
    (t.unlink (some p) name).node? j =
      if j = p then (t.node? j).map fun n => { n with children := n.children.erase name }
      else t.node? j :=
  node?_modifyNode t p j _

theorem alike_unlink (p : NodeId) (name : String) (hj : t.node? j = some n) :
    ∃ k, (t.unlink (some p) name).node? j = some k ∧ Alike k n := by
  rw [node?_unlink,hj]
  split_ifs
  · exact ⟨_,rfl,alike_children n _⟩
  · exact ⟨n,rfl,alike_children n _⟩

theorem child?_unlink (t : Tree α) (p : NodeId) (name : String) (j : NodeId) (other : String) :
    (t.unlink (some p) name).child? j other =
      if j = p ∧ other = name then none else t.child? j other := by
  simp only [child?,node?_unlink]
  by_cases hj : j = p
  · subst hj
    by_cases ho : other = name
    · cases t.node? j <;> simp [ho]
    · cases t.node? j <;> simp [ho,Ne.symm ho,SortedMap.getElem?_erase]
  · simp [hj]

def detach (t : Tree α) (id : NodeId) (n : Node α) : Tree α :=
  (t.unlink n.parent n.name).release [id]

section Detach

variable {p : NodeId} {name : String}

theorem below_unlink_iff (ht : t.Linked) (hq : t.at? q = some p)
    (hid : t.at? (q ++ [name]) = some id) :
    (t.unlink (some p) name).Below id j ↔ ∃ s, t.at? (q ++ [name] ++ s) = some j := by
  constructor
  · intro h
    induction h with
    | refl => exact ⟨[],by simpa using hid⟩
    | tail _ hk ih =>
      obtain ⟨s,hs⟩ := ih
      obtain ⟨other,ho⟩ := hk
      rw [child?_unlink] at ho
      split_ifs at ho
      exact ⟨s ++ [other],by rw [← List.append_assoc,at?_concat,hs,Option.bind_some,ho]⟩
  · rintro ⟨s,hs⟩
    induction s using List.reverseRecOn generalizing j with
    | nil =>
      rw [List.append_nil,hid] at hs
      obtain rfl := Option.some.inj hs
      exact .refl
    | append_singleton s other ih =>
      rw [← List.append_assoc,at?_concat,Option.bind_eq_some_iff] at hs
      obtain ⟨k,hk,hc⟩ := hs
      have hkp : k ≠ p := by
        rintro rfl
        have he := congrArg List.length (ht.at?_inj hq hk)
        simp only [List.length_append,List.length_singleton] at he
        omega
      exact (ih hk).tail ⟨other,by rw [child?_unlink,if_neg fun h => hkp h.1,hc]⟩

variable (ht : t.Linked) (hid : t.at? (q ++ [name]) = some id) (hn : t.node? id = some n)
include ht hid hn

theorem unlink_parent : ∃ p, t.at? q = some p ∧
    t.unlink n.parent n.name = t.unlink (some p) name := by
  obtain ⟨p,_,hp,-⟩ := at?_concat_eq_some_iff.1 hid
  obtain ⟨h1,h2⟩ := ht.parent hid hn
  exact ⟨p,hp,by rw [h1,h2,hp]⟩

theorem node?_detach (hr : t.at? r = some j) : (t.detach id n).node? j =
    if q ++ [name] <+: r then none else (t.unlink n.parent n.name).node? j := by
  obtain ⟨p,hp,hu⟩ := unlink_parent ht hid hn
  have hrel := node?_release (t.unlink n.parent n.name) [id] j
  simp only [List.mem_singleton,exists_eq_left,hu,below_unlink_iff ht hp hid] at hrel
  simp only [detach,hu]
  split_ifs with h
  · obtain ⟨s,rfl⟩ := h
    exact hrel.1 ⟨s,hr⟩
  · refine hrel.2 fun ⟨s,hs⟩ => h ?_
    rw [ht.at?_inj hr hs]
    exact List.prefix_append _ s

theorem live_of_detach {k : Node α} (hj : (t.detach id n).node? j = some k) :
    ∃ r m, t.at? r = some j ∧ ¬q ++ [name] <+: r ∧ t.node? j = some m ∧ Alike k m := by
  obtain ⟨p,hp,hu⟩ := unlink_parent ht hid hn
  have hlive : ∃ m, t.node? j = some m := by
    have hrel := node?_release (t.unlink n.parent n.name) [id] j
    by_cases h : ∃ i ∈ [id], (t.unlink n.parent n.name).Below i j
    · rw [detach,hrel.1 h] at hj
      cases hj
    · rw [detach,hrel.2 h,hu,node?_unlink] at hj
      split_ifs at hj
      · obtain ⟨m,hm,-⟩ := Option.map_eq_some_iff.1 hj
        exact ⟨m,hm⟩
      · exact ⟨k,hj⟩
  obtain ⟨m,hm⟩ := hlive
  obtain ⟨r,hr⟩ := ht.reached hm
  rw [node?_detach ht hid hn hr] at hj
  split_ifs at hj with h
  obtain ⟨l,hl,ha⟩ := alike_unlink p name hm
  rw [hu,hl] at hj
  exact ⟨r,m,hr,h,hm,Option.some.inj hj ▸ ha⟩

theorem at?_detach (r : List String) :
    (t.detach id n).at? r = if q ++ [name] <+: r then none else t.at? r := by
  obtain ⟨p,hp,hu⟩ := unlink_parent ht hid hn
  induction r using List.reverseRecOn with
  | nil => simp
  | append_singleton r other ih =>
    by_cases hr : q ++ [name] <+: r
    · have hpre := hr.trans (List.prefix_append r [other])
      simp [at?_concat,ih,hr,hpre]
    · rw [at?_concat,ih,if_neg hr]
      cases hk : t.at? r with
      | none => simp [at?_append_eq_none hk]
      | some k =>
        have hkp : k = p ↔ r = q := by
          constructor
          · rintro rfl
            exact ht.at?_inj hk hp
          · rintro rfl
            exact Option.some.inj (hk.symm.trans hp)
        have hpre : q ++ [name] <+: r ++ [other] ↔ r = q ∧ other = name := by
          rw [List.prefix_concat_iff,or_iff_left hr]
          simp [eq_comm]
        have hc : (t.detach id n).child? k other = (t.unlink (some p) name).child? k other := by
          simp only [child?,node?_detach ht hid hn hk,if_neg hr,hu]
        rw [Option.bind_some,hc,child?_unlink]
        simp [hkp,hpre,at?_concat,hk]

theorem entryAt_detach (r : List String) :
    (t.detach id n).entryAt r = if q ++ [name] <+: r then none else t.entryAt r := by
  obtain ⟨p,hp,hu⟩ := unlink_parent ht hid hn
  simp only [entryAt,at?_detach ht hid hn]
  by_cases hr : q ++ [name] <+: r
  · simp [hr]
  · rw [if_neg hr,if_neg hr]
    cases hk : t.at? r with
    | none => rfl
    | some k =>
      rw [Option.bind_some,Option.bind_some,node?_detach ht hid hn hk,if_neg hr,hu,node?_unlink]
      split_ifs
      · cases t.node? k <;> rfl
      · rfl

theorem linked_detach : (t.detach id n).Linked := by
  obtain ⟨p,hp,hu⟩ := unlink_parent ht hid hn
  have hnode : ∀ {r j}, t.at? r = some j → ¬q ++ [name] <+: r →
      (t.detach id n).node? j = (t.unlink (some p) name).node? j := by
    intro r j hr hpre
    rw [node?_detach ht hid hn hr,if_neg hpre,hu]
  refine ⟨?root,?child,?group,?reached,?free⟩
  case root =>
    obtain ⟨m,hm,h1,h2,h3⟩ := ht.root
    obtain ⟨k,hk,ha⟩ := alike_unlink p name hm
    rw [hnode (at?_nil t) (by simp)]
    exact ⟨k,hk,ha.parent.trans h1,ha.payload.trans h2,ha.implicit.trans h3⟩
  case child =>
    intro j k other c hj hc
    obtain ⟨r,m,hr,hpre,hm,-⟩ := live_of_detach ht hid hn hj
    have hch := child?_eq_some_iff.2 ⟨k,hj,hc⟩
    simp only [child?,hnode hr hpre] at hch
    rw [← child?,child?_unlink] at hch
    split_ifs at hch with hne
    obtain ⟨m',hm',hmc⟩ := child?_eq_some_iff.1 hch
    obtain ⟨hname,l,hl,h1,h2⟩ := ht.child hm' hmc
    have hrc : t.at? (r ++ [other]) = some c := by rw [at?_concat,hr,Option.bind_some,hch]
    have hpre' : ¬q ++ [name] <+: r ++ [other] := by
      rw [List.prefix_concat_iff]
      rintro (h | h)
      · obtain ⟨rfl,ho⟩ := List.append_inj' h rfl
        obtain rfl := List.cons.inj ho |>.1
        exact hne ⟨Option.some.inj (hr.symm.trans hp),rfl⟩
      · exact hpre h
    obtain ⟨l',hl',ha⟩ := alike_unlink p name hl
    rw [hnode hrc hpre']
    exact ⟨hname,l',hl',ha.name.trans h1,ha.parent.trans h2⟩
  case group =>
    intro j k hj hor
    obtain ⟨r,m,hr,hpre,hm,ha⟩ := live_of_detach ht hid hn hj
    rw [ha.payload]
    refine ht.group hm ?_
    rcases hor with h | h
    · exact .inl (ha.implicit ▸ h)
    · rw [hnode hr hpre,node?_unlink,hm] at hj
      split_ifs at hj
      · obtain rfl := Option.some.inj hj
        exact .inr (Std.TreeMap.isEmpty_eq_false_of_isEmpty_erase_eq_false h)
      · obtain rfl := Option.some.inj hj
        exact .inr h
  case reached =>
    intro j k hj
    obtain ⟨r,m,hr,hpre,-⟩ := live_of_detach ht hid hn hj
    exact ⟨r,by rw [at?_detach ht hid hn,if_neg hpre,hr]⟩
  case free =>
    rw [detach,hu]
    exact freeExact_release (freeExact_modifyNode ht.free _ _) _

end Detach

theorem vacate_unlink (t : Tree α) {p : NodeId} (h : id ≠ p) (name : String) :
    (t.vacate id).unlink (some p) name = (t.unlink (some p) name).vacate id := by
  simp only [unlink,modifyNode,vacate,Tree.mk.injEq,and_true]
  apply Array.ext_getElem?
  intro j
  by_cases hj : id = j
  · subst hj
    simp [Array.getElem?_modify,Array.getElem?_setIfInBounds,Ne.symm h]
  · simp [Array.getElem?_modify,hj]

theorem release_cons (hn : t.node? id = some n) (stack : List NodeId) :
    t.release (id :: stack) = (t.vacate id).release (n.children.values.reverse ++ stack) := by
  rw [release]
  split
  · rename_i hnone
    rw [hn] at hnone
    cases hnone
  · rename_i m hm
    obtain rfl := Option.some.inj (hn.symm.trans hm)
    rfl

theorem vacate_unlink_eq_detach {p : NodeId} (hn : t.node? id = some n)
    (hc : n.children.isEmpty = true) (hp : n.parent = some p) (h : id ≠ p) :
    (t.vacate id).unlink n.parent n.name = t.detach id n := by
  have hu : (t.unlink (some p) n.name).node? id = some n := by rw [node?_unlink,if_neg h,hn]
  have hv : n.children.values = [] := by
    refine List.eq_nil_iff_forall_not_mem.2 fun c hm => ?_
    obtain ⟨k,hk⟩ := SortedMap.mem_values_iff.1 hm
    rw [SortedMap.isEmpty_iff.1 hc k] at hk
    cases hk
  rw [detach,hp,vacate_unlink t h,release_cons hu,hv,List.reverse_nil,List.append_nil,release]

theorem prune_of_not (hn : t.node? id = some n)
    (h : ¬(id ≠ rootId ∧ n.implicit = true ∧ n.children.isEmpty = true)) : t.prune id = t := by
  rw [prune]
  split
  · rfl
  · rename_i m hm
    obtain rfl := Option.some.inj (hn.symm.trans hm)
    rw [if_neg h]

theorem prune_of_parent (hn : t.node? id = some n) (hr : id ≠ rootId) (hi : n.implicit = true)
    (hc : n.children.isEmpty = true) {p : NodeId} (hp : n.parent = some p) :
    t.prune id = ((t.vacate id).unlink n.parent n.name).prune p := by
  rw [prune]
  split
  · rename_i hnone
    rw [hn] at hnone
    cases hnone
  · rename_i m hm
    obtain rfl := Option.some.inj (hn.symm.trans hm)
    rw [if_pos ⟨hr,hi,hc⟩]
    split
    · rename_i parent hparent
      obtain rfl := Option.some.inj (hp.symm.trans hparent)
      rfl
    · rename_i hnone
      rw [hp] at hnone
      cases hnone

theorem prune_of (ht : t.Linked) {name : String} {p : NodeId} (hp : t.at? q = some p)
    (hid : t.at? (q ++ [name]) = some id) (hn : t.node? id = some n)
    (hi : n.implicit = true) (hc : n.children.isEmpty = true) :
    t.prune id = (t.detach id n).prune p := by
  have hpar : n.parent = some p := (ht.parent hid hn).2.trans hp
  have hne : id ≠ p := by
    rintro rfl
    have he := congrArg List.length (ht.at?_inj hid hp)
    simp at he
  rw [prune_of_parent hn (ht.ne_root (by simp) hid) hi hc hpar,
    vacate_unlink_eq_detach hn hc hpar hne]

section Prune

variable {M : Catalog α} {name : String}

/-- Where pruning stops, exactly what goes with `q` is missing. -/
theorem entryAt_of_stop (hq : r ++ [name] <+: q)
    (hspent : ∀ u ∈ above q, r ++ [name] <+: u → M.spent q u = true)
    (hstop : r = [] ∨ M.spent q r = false) (s : List String) :
    (if r ++ [name] <+: s then none else M.entryAt s) =
      if q <+: s ∨ s ∈ M.lost q then none else M.entryAt s := by
  by_cases hs : r ++ [name] <+: s
  · rw [if_pos hs]
    split_ifs with h
    · rfl
    · by_contra hne
      obtain ⟨e,he⟩ := Option.ne_none_iff_exists'.1 (Ne.symm hne)
      by_cases hrq : r ++ [name] = q
      · exact h (.inl (hrq ▸ hs))
      · have hlost : r ++ [name] ∈ M.lost q :=
          mem_lost_iff.2 ⟨mem_above_iff.2 ⟨by simp,hq,hrq⟩,hspent⟩
        obtain ⟨u,rfl⟩ := hs
        exact h (lost_of_below hlost he)
  · rw [if_neg hs,if_neg]
    rintro (h | h)
    · exact hs (hq.trans h)
    · obtain ⟨ha,hall⟩ := mem_lost_iff.1 h
      obtain ⟨hsn,hsq,-⟩ := mem_above_iff.1 ha
      have hlen : s.length ≤ r.length := by
        by_contra hlt
        exact hs (concat_prefix_of_length_lt hq hsq (not_le.1 hlt))
      have hrq : r <+: q := (List.prefix_append r [name]).trans hq
      have hsr : s <+: r := List.prefix_of_prefix_length_le hsq hrq hlen
      rcases hstop with rfl | hstop
      · exact hsn (List.prefix_nil.1 hsr)
      · have hra : r ∈ above q := by
          refine mem_above_iff.2 ⟨?_,hrq,?_⟩
          · rintro rfl
            exact hsn (List.prefix_nil.1 hsr)
          · rintro rfl
            exact concat_not_isPrefix r name hq
        rw [hall r hra hsr] at hstop
        cases hstop

theorem spent_iff_isEmpty (ht : t.Linked) (hr : r ≠ []) (hid : t.at? r = some id)
    (hn : t.node? id = some n) (hq : r ++ [name] <+: q)
    (hM : ∀ s, s ≠ [] → t.entryAt s = if r ++ [name] <+: s then none else M.entryAt s) :
    M.spent q r = true ↔ n.implicit = true ∧ n.children.isEmpty = true := by
  have hself : M.entryAt r = some ⟨n.payload,n.implicit⟩ := by
    rw [← entryAt_eq_some hid hn,hM r hr,if_neg (concat_not_isPrefix r name)]
  have hchild : ∀ b, n.children[b]? = none ↔ b = name ∨ M.entryAt (r ++ [b]) = none := by
    intro b
    have hb : t.at? (r ++ [b]) = n.children[b]? := by
      rw [at?_concat,hid,Option.bind_some,child?,hn,Option.bind_some]
    have hpre : r ++ [name] <+: r ++ [b] ↔ b = name := by simp [eq_comm]
    rw [← hb,← ht.entryAt_eq_none_iff,hM _ (by simp)]
    simp only [hpre]
    split_ifs with h <;> simp [h]
  rw [spent_iff,SortedMap.isEmpty_iff]
  refine and_congr ?_ ⟨fun h b => ?_,fun h k e he hk => ?_⟩
  · simp [hself]
  · rw [hchild]
    by_contra hcon
    obtain ⟨hne,hsome⟩ := not_or.1 hcon
    obtain ⟨e,he⟩ := Option.ne_none_iff_exists'.1 hsome
    have hp := List.prefix_of_prefix_length_le (h _ e he (by simp)) hq (by simp)
    have heq := hp.eq_of_length (by simp)
    simp at heq
    exact hne heq
  · cases k using List.reverseRecOn with
    | nil => simp at he
    | append_singleton k b =>
      rw [List.dropLast_concat] at hk
      subst hk
      rcases (hchild b).1 (h b) with rfl | h
      · exact hq
      · rw [he] at h
        cases h

/-- Pruning from the parent of what was removed takes away what goes with it. -/
theorem prune_spec (ht : t.Linked) (hid : t.at? r = some id) (hq : r ++ [name] <+: q)
    (hspent : ∀ u ∈ above q, r ++ [name] <+: u → M.spent q u = true)
    (hM : ∀ s, s ≠ [] → t.entryAt s = if r ++ [name] <+: s then none else M.entryAt s) :
    (t.prune id).Linked ∧ ∀ s, s ≠ [] → (t.prune id).entryAt s =
      if q <+: s ∨ s ∈ M.lost q then none else M.entryAt s := by
  induction r using List.reverseRecOn generalizing t id name with
  | nil =>
    obtain ⟨n,hn⟩ := ht.live hid
    have hroot : id = rootId := (Option.some.inj hid).symm
    rw [prune_of_not hn fun h => h.1 hroot]
    exact ⟨ht,fun s hs => (hM s hs).trans (entryAt_of_stop hq hspent (.inl rfl) s)⟩
  | append_singleton r last ih =>
    obtain ⟨n,hn⟩ := ht.live hid
    obtain ⟨p,_,hp,-⟩ := at?_concat_eq_some_iff.1 hid
    have hiff := spent_iff_isEmpty ht (by simp) hid hn hq hM
    cases hs : M.spent q (r ++ [last]) with
    | false =>
      have hstop : ¬(id ≠ rootId ∧ n.implicit = true ∧ n.children.isEmpty = true) := by
        rintro ⟨-,h⟩
        rw [hiff.2 h] at hs
        cases hs
      rw [prune_of_not hn hstop]
      exact ⟨ht,fun s hs' => (hM s hs').trans (entryAt_of_stop hq hspent (.inr hs) s)⟩
    | true =>
      obtain ⟨hi,hc⟩ := hiff.1 hs
      rw [prune_of ht hp hid hn hi hc]
      refine ih (linked_detach ht hid hn) ?_ ((List.prefix_append _ _).trans hq) ?_ ?_
      · rw [at?_detach ht hid hn,if_neg (concat_not_isPrefix r last),hp]
      · intro u hu hpre
        by_cases he : r ++ [last] = u
        · exact he ▸ hs
        · exact hspent u hu (concat_prefix_of_length_lt hq (mem_above_iff.1 hu).2.1
            (length_lt_of_isPrefix hpre he))
      · intro s hs'
        rw [entryAt_detach ht hid hn,hM s hs']
        split_ifs with h1 h2
        · rfl
        · exact absurd ((List.prefix_append _ _).trans h2) h1
        · rfl

end Prune

end Tree
end CommandShell
