import CommandShell.Proofs.Tree.Linked

/-! Adding to a tree.
A new node changes what its path leads to and nothing else, and the links keep fitting. -/
namespace CommandShell
namespace Tree

variable {α : Type} {t : Tree α} {q : List String} {p : NodeId} {m : Node α} {name : String}

theorem node?_attach_fst (ht : t.Linked) (p : NodeId) (name : String) (x : Payload α)
    (implicit : Bool) : t.node? (t.attach p name x implicit).1 = none :=
  node?_place_fst ht.free _

theorem attach_fst_ne (ht : t.Linked) {j : NodeId} {n : Node α} (hj : t.node? j = some n)
    (p : NodeId) (name : String) (x : Payload α) (implicit : Bool) :
    j ≠ (t.attach p name x implicit).1 := by
  rintro rfl
  rw [node?_attach_fst ht] at hj
  cases hj

theorem node?_attach (ht : t.Linked) (hm : t.node? p = some m) (name : String) (x : Payload α)
    (implicit : Bool) (j : NodeId) :
    (t.attach p name x implicit).2.node? j =
      if j = (t.attach p name x implicit).1 then some ⟨name,x,some p,∅,implicit⟩
      else if j = p then
        some { m with children := m.children.insert name (t.attach p name x implicit).1 }
      else t.node? j := by
  have hp := attach_fst_ne ht hm p name x implicit
  simp only [attach,node?_modifyNode,node?_place ht.free] at hp ⊢
  by_cases hj : j = p
  · subst hj
    simp [hp,hm]
  · simp [hj]

theorem child?_attach (ht : t.Linked) (hm : t.node? p = some m) (name : String) (x : Payload α)
    (implicit : Bool) (j : NodeId) (other : String) :
    (t.attach p name x implicit).2.child? j other =
      if j = p ∧ other = name then some (t.attach p name x implicit).1 else t.child? j other := by
  have hp := attach_fst_ne ht hm p name x implicit
  have hi := node?_attach_fst ht p name x implicit
  simp only [child?,node?_attach ht hm]
  by_cases hji : j = (t.attach p name x implicit).1
  · subst hji
    simp [hi,hp.symm]
  by_cases hjp : j = p
  · subst hjp
    by_cases ho : other = name
    · simp [hji,ho]
    · simp [hji,ho,Ne.symm ho,hm,SortedMap.getElem?_insert]
  · simp [hji,hjp]

theorem at?_attach (ht : t.Linked) (hq : t.at? q = some p) (hm : t.node? p = some m)
    (hc : t.at? (q ++ [name]) = none) (x : Payload α) (implicit : Bool) (r : List String) :
    (t.attach p name x implicit).2.at? r =
      if r = q ++ [name] then some (t.attach p name x implicit).1 else t.at? r := by
  have hi := node?_attach_fst ht p name x implicit
  have hp := attach_fst_ne ht hm p name x implicit
  induction r using List.reverseRecOn with
  | nil => simp
  | append_singleton r other ih =>
    rw [at?_concat,ih,at?_concat]
    by_cases hr : r = q ++ [name]
    · have hne : r ≠ q := by
        rintro rfl
        simp at hr
      have hn : t.child? (t.attach p name x implicit).1 other = none := by simp [child?,hi]
      simp [hr,hc,child?_attach ht hm,hp.symm,hn]
    · rw [if_neg hr]
      cases hk : t.at? r with
      | none =>
        have hne : r ≠ q := by
          rintro rfl
          simp [hk] at hq
        simp [hne]
      | some k =>
        have hkp : k = p ↔ r = q := by
          constructor
          · rintro rfl
            exact ht.at?_inj hk hq
          · rintro rfl
            exact Option.some.inj (hk.symm.trans hq)
        simp [child?_attach ht hm,hkp]

theorem entryAt_attach (ht : t.Linked) (hq : t.at? q = some p) (hm : t.node? p = some m)
    (hc : t.at? (q ++ [name]) = none) (x : Payload α) (implicit : Bool) (r : List String) :
    (t.attach p name x implicit).2.entryAt r =
      if r = q ++ [name] then some ⟨x,implicit⟩ else t.entryAt r := by
  simp only [entryAt,at?_attach ht hq hm hc]
  by_cases hr : r = q ++ [name]
  · simp [hr,node?_attach ht hm]
  · rw [if_neg hr,if_neg hr]
    cases hk : t.at? r with
    | none => rfl
    | some k =>
      obtain ⟨n,hn⟩ := ht.live hk
      have hki := attach_fst_ne ht hn p name x implicit
      by_cases hkp : k = p
      · subst hkp
        simp [node?_attach ht hm,hki,hm]
      · simp [node?_attach ht hm,hki,hkp]

theorem alike_attach (ht : t.Linked) (hm : t.node? p = some m) (name : String) (x : Payload α)
    (implicit : Bool) {j : NodeId} {n : Node α} (hj : t.node? j = some n) :
    ∃ k, (t.attach p name x implicit).2.node? j = some k ∧ Alike k n := by
  rw [node?_attach ht hm,if_neg (attach_fst_ne ht hj p name x implicit)]
  by_cases hjp : j = p
  · subst hjp
    obtain rfl := Option.some.inj (hj.symm.trans hm)
    exact ⟨_,if_pos rfl,alike_children n _⟩
  · exact ⟨n,by rw [if_neg hjp,hj],alike_children n _⟩

theorem live_of_attach (ht : t.Linked) (hm : t.node? p = some m) {x : Payload α} {implicit : Bool}
    {j : NodeId} {n : Node α} (hj : (t.attach p name x implicit).2.node? j = some n)
    (hne : j ≠ (t.attach p name x implicit).1) : ∃ k, t.node? j = some k := by
  rw [node?_attach ht hm,if_neg hne] at hj
  split_ifs at hj with h
  · exact ⟨m,h ▸ hm⟩
  · exact ⟨n,hj⟩

theorem linked_attach (ht : t.Linked) (hq : t.at? q = some p) (hm : t.node? p = some m)
    (hg : m.payload = .group) (hn : Path.IsName name) (hc : t.at? (q ++ [name]) = none)
    (x : Payload α) (implicit : Bool) (hx : implicit = true → x = .group) :
    (t.attach p name x implicit).2.Linked := by
  have hnode := node?_attach ht hm name x implicit
  refine ⟨?root,?child,?group,?reached,?free⟩
  case root =>
    obtain ⟨n,hr,hpar,hpay,himp⟩ := ht.root
    obtain ⟨k,hk,ha⟩ := alike_attach ht hm name x implicit hr
    exact ⟨k,hk,ha.parent.trans hpar,ha.payload.trans hpay,ha.implicit.trans himp⟩
  case child =>
    intro j n other c hj hother
    have hch := child?_eq_some_iff.2 ⟨n,hj,hother⟩
    rw [child?_attach ht hm] at hch
    split_ifs at hch with h
    · obtain rfl := Option.some.inj hch
      obtain ⟨rfl,rfl⟩ := h
      exact ⟨hn,_,by rw [hnode,if_pos rfl],rfl,rfl⟩
    · obtain ⟨k,hk,hkc⟩ := child?_eq_some_iff.1 hch
      obtain ⟨hname,m',hm',h1,h2⟩ := ht.child hk hkc
      obtain ⟨l,hl,ha⟩ := alike_attach ht hm name x implicit hm'
      exact ⟨hname,l,hl,ha.name.trans h1,ha.parent.trans h2⟩
  case group =>
    intro j n hj hor
    rw [hnode] at hj
    split_ifs at hj with h1 h2
    · obtain rfl := Option.some.inj hj
      rcases hor with h | h
      · exact hx h
      · simp at h
    · obtain rfl := Option.some.inj hj
      exact hg
    · exact ht.group hj hor
  case reached =>
    intro j n hj
    have hat := at?_attach ht hq hm hc x implicit
    by_cases hji : j = (t.attach p name x implicit).1
    · exact ⟨q ++ [name],by rw [hat,if_pos rfl,hji]⟩
    · obtain ⟨k,hk⟩ := live_of_attach ht hm hj hji
      obtain ⟨r,hr⟩ := ht.reached hk
      refine ⟨r,?_⟩
      rw [hat,if_neg,hr]
      rintro rfl
      simp [hc] at hr
  case free => exact freeExact_modifyNode (freeExact_place ht.free _) _ _

theorem attachGroups_cons (t : Tree α) (p : NodeId) (name : String) (names : List String) :
    t.attachGroups p (name :: names) =
      (t.attach p name .group true).2.attachGroups (t.attach p name .group true).1 names := rfl

theorem attachGroups_spec (names : List String) {t : Tree α} {q : List String} {p : NodeId}
    {m : Node α} (ht : t.Linked) (hq : t.at? q = some p) (hm : t.node? p = some m)
    (hg : m.payload = .group) (hn : ∀ name ∈ names, Path.IsName name)
    (hc : ∀ name rest, names = name :: rest → t.at? (q ++ [name]) = none) :
    (t.attachGroups p names).2.Linked ∧
      (t.attachGroups p names).2.at? (q ++ names) = some (t.attachGroups p names).1 ∧
      (∃ n, (t.attachGroups p names).2.node? (t.attachGroups p names).1 = some n ∧
        n.payload = .group) ∧
      ∀ r, (t.attachGroups p names).2.entryAt r =
        if q <+: r ∧ r ≠ q ∧ r <+: q ++ names then some ⟨.group,true⟩ else t.entryAt r := by
  induction names generalizing t q p m with
  | nil =>
    refine ⟨ht,by simpa [attachGroups] using hq,⟨m,hm,hg⟩,fun r => ?_⟩
    rw [List.append_nil,if_neg]
    · rfl
    · rintro ⟨h1,h2,h3⟩
      exact h2 (h3.eq_of_length_le h1.length_le)
  | cons name names ih =>
    have hnone := hc name names rfl
    have hlink := linked_attach ht hq hm hg (hn name (by simp)) hnone .group true fun _ => rfl
    have hat := at?_attach ht hq hm hnone .group true
    have hentry := entryAt_attach ht hq hm hnone .group true
    have hself := (hat (q ++ [name])).trans (if_pos rfl)
    have hnode := (node?_attach ht hm name .group true
      (t.attach p name .group true).1).trans (if_pos rfl)
    have hfree : ∀ other rest, names = other :: rest →
        (t.attach p name .group true).2.at? (q ++ [name] ++ [other]) = none := by
      intro other rest _
      rw [hat,if_neg (by simp)]
      exact at?_append_eq_none hnone [other]
    obtain ⟨h1,h2,h3,h4⟩ := ih hlink hself hnode rfl (fun other ho => hn other (by simp [ho])) hfree
    have hsplit : q ++ [name] ++ names = q ++ name :: names := by simp
    rw [hsplit] at h2 h4
    rw [attachGroups_cons]
    refine ⟨h1,h2,h3,fun r => ?_⟩
    rw [h4,hentry]
    by_cases hr : r = q ++ [name]
    · subst hr
      simp
    · have hiff : (q ++ [name] <+: r ∧ r ≠ q ++ [name] ∧ r <+: q ++ name :: names) ↔
          (q <+: r ∧ r ≠ q ∧ r <+: q ++ name :: names) := by
        constructor
        · rintro ⟨h1,-,h3⟩
          refine ⟨(List.prefix_append q [name]).trans h1,?_,h3⟩
          rintro rfl
          exact concat_not_isPrefix r name h1
        · rintro ⟨h1,h2,h3⟩
          have hpre : q ++ [name] <+: q ++ name :: names := by simp
          exact ⟨concat_prefix_of_length_lt hpre h3 (length_lt_of_isPrefix h1 h2.symm),hr,h3⟩
      rw [if_neg hr]
      exact if_congr hiff rfl rfl

theorem isGroup_iff {id : NodeId} {n : Node α} (hn : t.node? id = some n) :
    t.isGroup id = true ↔ n.payload = .group := by
  cases h : n.payload <;> simp [isGroup,hn,h,Payload.isGroup]

theorem descend_ok (path : List String) {q : List String} {id last : NodeId} {n : Node α}
    {missing : List String} (ht : t.Linked) (hq : t.at? q = some id) (hn : t.node? id = some n)
    (hg : n.payload = .group) (hnames : ∀ name ∈ path, Path.IsName name)
    (h : t.descend id path = .ok (last,missing)) :
    ∃ taken m, path = taken ++ missing ∧ t.at? (q ++ taken) = some last ∧
      t.node? last = some m ∧ m.payload = .group ∧
      (∀ name rest, missing = name :: rest → t.at? (q ++ taken ++ [name]) = none) ∧
      ∀ s e, s ≠ [] → s <+: path → t.entryAt (q ++ s) = some e → e.payload = .group := by
  induction path generalizing q id n with
  | nil =>
    simp only [descend,Except.ok.injEq,Prod.mk.injEq] at h
    obtain ⟨rfl,rfl⟩ := h
    refine ⟨[],n,rfl,by simpa using hq,hn,hg,by simp,fun s e hs hp => ?_⟩
    exact absurd (List.prefix_nil.1 hp) hs
  | cons name path ih =>
    have hat : t.at? (q ++ [name]) = t.child? id name := by rw [at?_concat,hq,Option.bind_some]
    have hsplit : ∀ s, q ++ name :: s = q ++ [name] ++ s := by simp
    rw [descend,get?_of_isName t id (hnames name (by simp))] at h
    cases hc : t.child? id name with
    | none =>
      rw [hc] at h hat
      simp only [Except.ok.injEq,Prod.mk.injEq] at h
      obtain ⟨rfl,rfl⟩ := h
      refine ⟨[],n,rfl,by simpa using hq,hn,hg,?_,?_⟩
      · rintro other rest ho
        obtain ⟨rfl,-⟩ := List.cons.inj ho
        simpa using hat
      · intro s e hs hp he
        cases s with
        | nil => exact absurd rfl hs
        | cons other s =>
          obtain ⟨rfl,-⟩ := List.cons_prefix_cons.1 hp
          rw [hsplit,ht.entryAt_eq_none_iff.2 (at?_append_eq_none hat s)] at he
          cases he
    | some c =>
      rw [hc] at h hat
      obtain ⟨k,hk⟩ := ht.live hat
      dsimp only at h
      split_ifs at h with hgr
      have hkg := (isGroup_iff hk).1 hgr
      obtain ⟨taken,m,hp,hl,hm,hmg,hmiss,hgroups⟩ :=
        ih hat hk hkg (fun other ho => hnames other (by simp [ho])) h
      refine ⟨name :: taken,m,by simp [hp],by rw [hsplit,hl],hm,hmg,?_,?_⟩
      · simpa using hmiss
      · intro s e hs hp he
        cases s with
        | nil => exact absurd rfl hs
        | cons other s =>
          obtain ⟨rfl,hs'⟩ := List.cons_prefix_cons.1 hp
          rw [hsplit] at he
          by_cases hnil : s = []
          · subst hnil
            rw [List.append_nil,entryAt_eq_some hat hk] at he
            exact Option.some.inj he ▸ hkg
          · exact hgroups s e hnil hs' he

theorem descend_error (path : List String) {q : List String} {id : NodeId} {e : TreeError}
    (ht : t.Linked) (hq : t.at? q = some id) (hnames : ∀ name ∈ path, Path.IsName name)
    (h : t.descend id path = .error e) :
    ∃ c x, c ≠ [] ∧ c <+: path ∧ t.entryAt (q ++ c) = some x ∧ x.payload ≠ .group ∧
      e = .notAGroup (Path.mk true (q ++ c)).text := by
  induction path generalizing q id with
  | nil => simp [descend] at h
  | cons name path ih =>
    have hat : t.at? (q ++ [name]) = t.child? id name := by rw [at?_concat,hq,Option.bind_some]
    rw [descend,get?_of_isName t id (hnames name (by simp))] at h
    cases hc : t.child? id name with
    | none => simp [hc] at h
    | some child =>
      rw [hc] at h hat
      obtain ⟨k,hk⟩ := ht.live hat
      dsimp only at h
      split_ifs at h with hgr
      · obtain ⟨c,x,hne,hp,hx,hxg,he⟩ := ih hat (fun other ho => hnames other (by simp [ho])) h
        refine ⟨name :: c,x,by simp,by simpa using hp,?_,hxg,?_⟩
        · simpa using hx
        · simpa using he
      · refine ⟨[name],_,by simp,by simp,entryAt_eq_some hat hk,mt (isGroup_iff hk).2 hgr,?_⟩
        rw [← Except.error.inj h,ht.fullPath_eq hat]

end Tree
end CommandShell
