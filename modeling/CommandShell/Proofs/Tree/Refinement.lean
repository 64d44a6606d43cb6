import CommandShell.Proofs.Tree.Growth
import CommandShell.Proofs.Tree.Removal

/-! The tree as a finite map.
After any history of additions and removals the tree shows exactly the entries of a map on which
the same changes were made without slots and links, and both give the same answers. -/
namespace CommandShell
namespace Tree

variable {α : Type} {t : Tree α} {M : Catalog α} {p : Path} {x : Payload α}

/-- The links fit together, and what stands at each path is what the map has there. -/
structure Shows (t : Tree α) (M : Catalog α) : Prop where
  linked : t.Linked
  entry : ∀ q, q ≠ [] → t.entryAt q = M.entryAt q

theorem locate_eq (h : p.fromRoot.segments.head? ≠ some "..") : locate p = .ok p.fromRoot :=
  if_neg h

theorem Linked.find?_fromRoot (ht : t.Linked) (hp : p.Parsed)
    (h : p.fromRoot.segments.head? ≠ some "..") :
    t.find? rootId p.fromRoot = t.at? p.fromRoot.segments :=
  ht.find?_eq_at? p.fromRoot.absolute (Path.isName_of_mem_fromRoot hp h)

theorem add_eq {init : List String} {leaf : String} (h : p.fromRoot.segments.head? ≠ some "..")
    (hq : p.fromRoot.segments = init ++ [leaf]) :
    t.add p x = match t.descend rootId init with
      | .error e => .error e
      | .ok (id,missing) =>
        if missing = [] ∧ (t.get? id leaf).isSome then .error (.duplicatePath p.fromRoot.text)
        else .ok
          ((t.attachGroups id missing).2.attach (t.attachGroups id missing).1 leaf x false) := by
  simp only [add,locate_eq h,hq,List.getLast?_concat,List.dropLast_concat,bind,Except.bind]
  cases t.descend rootId init with
  | error e => rfl
  | ok r =>
    simp only
    split_ifs <;> rfl

theorem isCommand_eq_false_iff {q : List String} :
    M.isCommand q = false ↔ ∀ e, M.entryAt q = some e → e.payload = .group := by
  cases h : M.entryAt q with
  | none => simp [Catalog.isCommand,h]
  | some e => cases hp : e.payload <;> simp [Catalog.isCommand,h,hp,Payload.isGroup]

theorem find?_isCommand {q c : List String} (hc : c ∈ above q) (h : M.isCommand c = true) :
    (above q).find? M.isCommand = some c := by
  cases hf : (above q).find? M.isCommand with
  | none => exact absurd h (List.find?_eq_none.1 hf c hc)
  | some d =>
    have hd := List.mem_of_find?_eq_some hf
    have hdc := List.find?_some hf
    have hno : ∀ {a b}, a ∈ above q → b ∈ above q → M.isCommand a = true → M.isCommand b = true →
        a <+: b → a = b := by
      intro a b ha hb hac hbc hab
      by_contra hne
      obtain ⟨e,he,-⟩ := Option.any_eq_true _ _ |>.1 hbc
      obtain ⟨e',he',hg⟩ :=
        Catalog.group_of_above he (mem_above_iff.2 ⟨(mem_above_iff.1 ha).1,hab,hne⟩)
      rw [isCommand_eq_false_iff.2 fun e'' h'' => by
        obtain rfl := Option.some.inj (he'.symm.trans h'')
        exact hg] at hac
      cases hac
    have hcp := (mem_above_iff.1 hc).2.1
    have hdp := (mem_above_iff.1 hd).2.1
    rcases List.prefix_or_prefix_of_prefix hcp hdp with hp | hp
    · rw [hno hc hd h hdc hp]
    · rw [hno hd hc hdc h hp]

theorem mem_above_concat_iff {q r : List String} {name : String} :
    r ∈ above (q ++ [name]) ↔ r ≠ [] ∧ r <+: q := by
  rw [mem_above_iff,List.prefix_concat_iff]
  constructor
  · rintro ⟨hne,h | h,hq⟩
    · exact absurd h hq
    · exact ⟨hne,h⟩
  · rintro ⟨hne,h⟩
    refine ⟨hne,.inr h,?_⟩
    rintro rfl
    exact concat_not_isPrefix q name h

/-- The names that are missing are those of the groups above that are not there yet. -/
theorem missing_iff {taken missing r : List String} {id : NodeId} (hr : r ≠ [])
    (ht : t.Linked) (hat : t.at? taken = some id)
    (hmiss : ∀ name rest, missing = name :: rest → t.at? (taken ++ [name]) = none) :
    (taken <+: r ∧ r ≠ taken ∧ r <+: taken ++ missing) ↔
      (r ≠ [] ∧ r <+: taken ++ missing) ∧ t.entryAt r = none := by
  constructor
  · rintro ⟨⟨s,rfl⟩,hne,hp⟩
    refine ⟨⟨hr,hp⟩,ht.entryAt_eq_none_iff.2 ?_⟩
    cases s with
    | nil => simp at hne
    | cons name s =>
      obtain ⟨rest,hrest⟩ := (List.prefix_append_right_inj taken).1 hp
      have hnone := hmiss name (s ++ rest) (by simp [← hrest])
      simpa using at?_append_eq_none hnone s
  · rintro ⟨⟨-,hp⟩,hnone⟩
    have hnot : ¬r <+: taken := by
      rintro ⟨s,rfl⟩
      rw [at?_append_eq_none (ht.entryAt_eq_none_iff.1 hnone) s] at hat
      cases hat
    rcases List.prefix_or_prefix_of_prefix hp (List.prefix_append taken missing) with h | h
    · exact absurd h hnot
    · exact ⟨h,fun he => hnot (he ▸ List.prefix_rfl),hp⟩

section Add

variable {init taken missing : List String} {leaf : String} {id : NodeId} {n : Node α}
  (h : t.Shows M) (hq : p.fromRoot.segments = init ++ [leaf])
  (hname : ∀ name ∈ p.fromRoot.segments, Path.IsName name)
include h hq hname

theorem Shows.add_of_error {e : TreeError} (hup : p.fromRoot.segments.head? ≠ some "..")
    (hd : t.descend rootId init = .error e) :
    t.add p x = .error e ∧ M.add p x = .error e := by
  obtain ⟨c,y,hne,hc,hy,hg,rfl⟩ := descend_error init h.linked (at?_nil t)
    (fun name hm => hname name (by simp [hq,hm])) hd
  rw [List.nil_append] at hy
  have hcmd : M.isCommand c = true := by
    rw [← Bool.not_eq_false,isCommand_eq_false_iff]
    intro hall
    exact hg (hall y (by rw [← h.entry c hne,hy]))
  refine ⟨by rw [add_eq hup hq,hd,List.nil_append],Catalog.add_below_command hup (by simp [hq]) ?_⟩
  rw [List.nil_append,hq]
  exact find?_isCommand (mem_above_concat_iff.2 ⟨hne,hc⟩) hcmd

variable (hd : t.descend rootId init = .ok (id,missing))
include hd

theorem Shows.isCommand_above (r : List String) (hr : r ∈ above p.fromRoot.segments) :
    M.isCommand r = false := by
  obtain ⟨k,hk,-,hkg,-⟩ := h.linked.root
  obtain ⟨_,_,-,-,-,-,-,hgroups⟩ := descend_ok init h.linked (at?_nil t) hk hkg
    (fun name hm => hname name (by simp [hq,hm])) hd
  rw [hq] at hr
  obtain ⟨hne,hp⟩ := mem_above_concat_iff.1 hr
  rw [isCommand_eq_false_iff]
  intro e he
  exact hgroups r e hne hp (by rw [List.nil_append,h.entry r hne,he])

theorem Shows.taken_iff :
    (missing = [] ∧ (t.get? id leaf).isSome) ↔ M.entryAt p.fromRoot.segments ≠ none := by
  obtain ⟨k,hk,-,hkg,-⟩ := h.linked.root
  obtain ⟨taken,m,hsplit,hat,hm,hmg,hmiss,-⟩ := descend_ok init h.linked (at?_nil t) hk hkg
    (fun name hm => hname name (by simp [hq,hm])) hd
  rw [List.nil_append] at hat hmiss
  rw [← h.entry _ (by simp [hq]),ne_eq,h.linked.entryAt_eq_none_iff,hq]
  cases missing with
  | nil =>
    rw [List.append_nil] at hsplit
    rw [hsplit,get?_of_isName t id (hname leaf (by simp [hq])),at?_concat,hat,Option.bind_some]
    simp [Option.isSome_iff_ne_none]
  | cons name rest =>
    have hnone : t.at? (init ++ [leaf]) = none := by
      rw [hsplit]
      simpa using at?_append_eq_none (hmiss name rest rfl) (rest ++ [leaf])
    simp [hnone]

theorem Shows.attach_of_ok (hfree : M.entryAt p.fromRoot.segments = none) :
    let u := (t.attachGroups id missing).2.attach (t.attachGroups id missing).1 leaf x false
    u.2.Shows (M.insert p.fromRoot.segments x (by simp [hq]) hfree
      (h.isCommand_above hq hname hd)) ∧ u.2.at? p.fromRoot.segments = some u.1 := by
  have ht := h.linked
  obtain ⟨k,hk,-,hkg,-⟩ := ht.root
  obtain ⟨taken,m,hsplit,hat,hm,hmg,hmiss,-⟩ := descend_ok init ht (at?_nil t) hk hkg
    (fun name hm => hname name (by simp [hq,hm])) hd
  rw [List.nil_append] at hat hmiss
  obtain ⟨hlink,hend,⟨g,hg,hgg⟩,hentry⟩ := attachGroups_spec missing ht hat hm hmg
    (fun name hm => hname name (by simp [hq,hsplit,hm])) hmiss
  rw [← hsplit] at hend
  have hnone : (t.attachGroups id missing).2.at? (init ++ [leaf]) = none := by
    rw [← hlink.entryAt_eq_none_iff,hentry,if_neg,h.entry _ (by simp),← hq,hfree]
    rintro ⟨-,-,hp⟩
    exact concat_not_isPrefix init leaf (hsplit ▸ hp)
  have hattach := linked_attach hlink hend hg hgg (hname leaf (by simp [hq])) hnone
    x false (by simp)
  refine ⟨⟨hattach,fun r hr => ?_⟩,?_⟩
  · rw [entryAt_attach hlink hend hg hnone,hentry,Catalog.entryAt_insert,hq]
    by_cases hrq : r = init ++ [leaf]
    · simp [hrq]
    · rw [if_neg hrq,if_neg hrq,← h.entry r hr]
      refine if_congr ?_ rfl rfl
      rw [missing_iff hr ht hat hmiss,mem_above_concat_iff,hsplit]
  · rw [hq,at?_attach hlink hend hg hnone,if_pos rfl]

end Add

/-- Adding to a tree gives the answer of adding to the map, and the tree then shows that map. -/
theorem Shows.add (h : t.Shows M) (hp : p.Parsed) (x : Payload α) :
    match M.add p x with
    | .ok M' => ∃ id t', t.add p x = .ok (id,t') ∧ t'.Shows M' ∧
        t'.at? p.fromRoot.segments = some id
    | .error e => t.add p x = .error e := by
  by_cases hup : p.fromRoot.segments.head? = some ".."
  · rw [Catalog.add_outside hup]
    simp [Tree.add,locate,hup,bind,Except.bind]
  rcases List.eq_nil_or_concat' p.fromRoot.segments with hnil | ⟨init,leaf,hq⟩
  · rw [Catalog.add_root hup hnil]
    simp [Tree.add,locate_eq hup,hnil,bind,Except.bind,throw,throwThe,MonadExceptOf.throw]
  have hname := Path.isName_of_mem_fromRoot hp hup
  have hne : p.fromRoot.segments ≠ [] := by simp [hq]
  cases hd : t.descend rootId init with
  | error e =>
    obtain ⟨h1,h2⟩ := h.add_of_error (x := x) hq hname hup hd
    rw [h2]
    exact h1
  | ok r =>
    obtain ⟨id,missing⟩ := r
    have hc := h.isCommand_above hq hname hd
    have htaken := h.taken_iff hq hname hd
    by_cases hfree : M.entryAt p.fromRoot.segments = none
    · rw [Catalog.add_free hup hne hc hfree]
      have hattach := h.attach_of_ok (x := x) hq hname hd hfree
      refine ⟨_,_,?_,hattach⟩
      rw [add_eq hup hq,hd]
      exact if_neg fun hcon => htaken.1 hcon hfree
    · have hnone : (above p.fromRoot.segments).find? M.isCommand = none :=
        List.find?_eq_none.2 fun r hr => by simp [hc r hr]
      rw [Catalog.add_taken hup hne hnone hfree,add_eq hup hq,hd]
      exact if_pos (htaken.2 hfree)

theorem remove_eq (h : p.fromRoot.segments.head? ≠ some "..") :
    t.remove p = match t.find? rootId p.fromRoot with
      | none => .error (.notFound p.fromRoot.text)
      | some id =>
        match t.node? id with
        | none => .error (.notFound p.fromRoot.text)
        | some n =>
          if id = rootId then .error .rootImmutable
          else .ok (n.payload,n.parent.elim (t.detach id n) (t.detach id n).prune) := by
  simp only [remove,locate_eq h,bind,Except.bind]
  cases t.find? rootId p.fromRoot with
  | none => rfl
  | some id =>
    simp only
    cases t.node? id with
    | none => rfl
    | some n =>
      simp only
      split_ifs <;> rfl

theorem Shows.detach {q : List String} {id : NodeId} {n : Node α} (h : t.Shows M) (hne : q ≠ [])
    (hat : t.at? q = some id) (hn : t.node? id = some n) :
    (n.parent.elim (t.detach id n) (t.detach id n).prune).Shows (M.erase q) := by
  have ht := h.linked
  obtain ⟨init,leaf,rfl⟩ := (List.eq_nil_or_concat' q).resolve_left hne
  obtain ⟨p,_,hp,-⟩ := at?_concat_eq_some_iff.1 hat
  rw [(ht.parent hat hn).2,hp,Option.elim_some]
  have hparent : (t.detach id n).at? init = some p := by
    rw [at?_detach ht hat hn,if_neg (concat_not_isPrefix init leaf),hp]
  have hspent : ∀ u ∈ above (init ++ [leaf]), init ++ [leaf] <+: u →
      M.spent (init ++ [leaf]) u = true := by
    intro u hu hpre
    obtain ⟨-,hle,hne'⟩ := mem_above_iff.1 hu
    exact absurd (hle.eq_of_length_le hpre.length_le) hne'
  have hprune := prune_spec (linked_detach ht hat hn) hparent List.prefix_rfl hspent
    fun s hs => by rw [entryAt_detach ht hat hn,h.entry s hs]
  exact ⟨hprune.1,fun r hr => (hprune.2 r hr).trans (Catalog.entryAt_erase M _ r).symm⟩

/-- Removing from a tree gives the answer of removing from the map, and the tree then shows that
map. -/
theorem Shows.remove (h : t.Shows M) (hp : p.Parsed) :
    match M.remove p with
    | .ok (x,M') => ∃ t', t.remove p = .ok (x,t') ∧ t'.Shows M'
    | .error e => t.remove p = .error e := by
  have ht := h.linked
  unfold Catalog.remove
  by_cases hup : p.fromRoot.segments.head? = some ".."
  · simp only [hup,if_true]
    simp [Tree.remove,locate,hup,bind,Except.bind]
  simp only [if_neg hup]
  rw [remove_eq hup,ht.find?_fromRoot hp hup]
  by_cases hne : p.fromRoot.segments = []
  · obtain ⟨k,hk,-⟩ := ht.root
    simp [hne,hk]
  rw [if_neg hne]
  cases hat : t.at? p.fromRoot.segments with
  | none =>
    have hnone := h.entry _ hne
    rw [ht.entryAt_eq_none_iff.2 hat] at hnone
    simp [← hnone]
  | some id =>
    obtain ⟨n,hn⟩ := ht.live hat
    have hsome := (h.entry _ hne).symm.trans (entryAt_eq_some hat hn)
    simp only [hsome,hn,if_neg (ht.ne_root hne hat)]
    exact ⟨_,rfl,h.detach hne hat hn⟩

theorem Shows.find?_isSome_iff (h : t.Shows M) (hp : p.Parsed)
    (hup : p.fromRoot.segments.head? ≠ some "..") :
    (t.find? rootId p.fromRoot).isSome ↔
      p.fromRoot.segments = [] ∨ (M.entryAt p.fromRoot.segments).isSome := by
  rw [h.linked.find?_fromRoot hp hup]
  by_cases hnil : p.fromRoot.segments = []
  · simp [hnil]
  · rw [← h.entry _ hnil,Option.isSome_iff_ne_none,Option.isSome_iff_ne_none,ne_eq,ne_eq,
      h.linked.entryAt_eq_none_iff]
    simp [hnil]

theorem node?_empty (id : NodeId) :
    (empty : Tree α).node? id = if id = rootId then some ⟨"",.group,none,∅,false⟩ else none := by
  cases id <;> simp [node?,empty,rootId]

theorem shows_empty : (empty : Tree α).Shows Catalog.empty := by
  have hnode : ∀ {id n}, (empty : Tree α).node? id = some n →
      id = rootId ∧ n = ⟨"",.group,none,∅,false⟩ := by
    intro id n h
    rw [node?_empty] at h
    split_ifs at h with hid
    exact ⟨hid,(Option.some.inj h).symm⟩
  have hnone : ∀ q, q ≠ [] → (empty : Tree α).at? q = none := by
    intro q hq
    obtain ⟨name,q,rfl⟩ := List.exists_cons_of_ne_nil hq
    simp [at?,child?,node?_empty]
  refine ⟨⟨?root,?child,?group,?reached,?free⟩,fun q hq => ?_⟩
  case root => exact ⟨_,node?_empty rootId,rfl,rfl,rfl⟩
  case child =>
    intro id n name c h hc
    obtain ⟨-,rfl⟩ := hnode h
    simp at hc
  case group =>
    intro id n h _
    obtain ⟨-,rfl⟩ := hnode h
    rfl
  case reached =>
    intro id n h
    exact ⟨[],by rw [(hnode h).1,at?_nil]⟩
  case free =>
    refine ⟨by simp [empty],fun id => ?_⟩
    cases id <;> simp [empty]
  rw [entryAt,hnone q hq,Catalog.entryAt_empty]
  rfl

/-- The tree holds the entries of the map, each in a node that is found at its path and knows it,
and no other node but the root. -/
structure Represents (t : Tree α) (M : Catalog α) : Prop where
  found : ∀ q e, M.entryAt q = some e → ∃ id n, t.find? rootId ⟨true,q⟩ = some id ∧
    t.node? id = some n ∧ n.payload = e.payload ∧ n.implicit = e.implicit ∧
    t.fullPath id = ⟨true,q⟩
  missing : ∀ q, q ≠ [] → (∀ name ∈ q, Path.IsName name) → M.entryAt q = none →
    t.find? rootId ⟨true,q⟩ = none
  live : ∀ id n, t.node? id = some n → id = rootId ∨
    ∃ q e, M.entryAt q = some e ∧ t.find? rootId ⟨true,q⟩ = some id

theorem Shows.represents (h : t.Shows M) : t.Represents M := by
  have ht := h.linked
  have hfound : ∀ q e, M.entryAt q = some e → ∃ id n, t.at? q = some id ∧ t.node? id = some n ∧
      n.payload = e.payload ∧ n.implicit = e.implicit := by
    intro q e he
    have hne : q ≠ [] := by
      rintro rfl
      simp at he
    rw [← h.entry q hne,entryAt,Option.map_eq_some_iff] at he
    obtain ⟨n,hn,rfl⟩ := he
    obtain ⟨id,hid,hn⟩ := Option.bind_eq_some_iff.1 hn
    exact ⟨id,n,hid,hn,rfl,rfl⟩
  refine ⟨fun q e he => ?_,fun q hne hq he => ?_,fun id n hn => ?_⟩
  · obtain ⟨id,n,hid,hn,h1,h2⟩ := hfound q e he
    exact ⟨id,n,(ht.find?_eq_at? true (ht.isName hid)).trans hid,hn,h1,h2,ht.fullPath_eq hid⟩
  · rw [ht.find?_eq_at? true hq,← ht.entryAt_eq_none_iff,h.entry q hne,he]
  · obtain ⟨q,hq⟩ := ht.reached hn
    by_cases hne : q = []
    · subst hne
      exact .inl (Option.some.inj hq).symm
    · exact .inr ⟨q,_,(h.entry q hne).symm.trans (entryAt_eq_some hq hn),
        (ht.find?_eq_at? true (ht.isName hq)).trans hq⟩

end Tree

/-- One call on a namespace. -/
inductive Change (α : Type)
  | add (p : Path) (x : Payload α)
  | remove (p : Path)

namespace Change

variable {α : Type}

def path : Change α → Path
  | add p _ => p
  | remove p => p

def onTree (t : Tree α) : Change α → Tree α
  | add p x => match t.add p x with
    | .ok (_,t) => t
    | .error _ => t
  | remove p => match t.remove p with
    | .ok (_,t) => t
    | .error _ => t

def onCatalog (M : Catalog α) : Change α → Catalog α
  | add p x => match M.add p x with
    | .ok M => M
    | .error _ => M
  | remove p => match M.remove p with
    | .ok (_,M) => M
    | .error _ => M

theorem shows_on {t : Tree α} {M : Catalog α} (h : t.Shows M) {c : Change α}
    (hc : c.path.Parsed) : (c.onTree t).Shows (c.onCatalog M) := by
  cases c with
  | add p x =>
    have hadd := h.add hc x
    simp only [onTree,onCatalog,path] at hadd ⊢
    cases hM : M.add p x with
    | error e =>
      rw [hM] at hadd
      rw [hadd]
      exact h
    | ok M' =>
      rw [hM] at hadd
      obtain ⟨id,t',ht,hs,-⟩ := hadd
      rw [ht]
      exact hs
  | remove p =>
    have hrem := h.remove hc
    simp only [onTree,onCatalog,path] at hrem ⊢
    cases hM : M.remove p with
    | error e =>
      rw [hM] at hrem
      rw [hrem]
      exact h
    | ok r =>
      rw [hM] at hrem
      obtain ⟨t',ht,hs⟩ := hrem
      rw [ht]
      exact hs

theorem shows_foldl (history : List (Change α)) {t : Tree α} {M : Catalog α} (h : t.Shows M)
    (hh : ∀ c ∈ history, c.path.Parsed) :
    (history.foldl onTree t).Shows (history.foldl onCatalog M) := by
  induction history generalizing t M with
  | nil => exact h
  | cons c history ih =>
    exact ih (shows_on h (hh c (by simp))) fun d hd => hh d (by simp [hd])

end Change

namespace Tree

variable {α : Type}

/-- After every history of calls the tree represents the map on which the same calls were made.
The next call, whatever it is, has the answer that the map gives, and the tree then represents the
map after it. -/
theorem represents_after (history : List (Change α)) (hh : ∀ c ∈ history, c.path.Parsed)
    (p : Path) (hp : p.Parsed) :
    let t := history.foldl Change.onTree empty
    let M := history.foldl Change.onCatalog Catalog.empty
    t.Represents M ∧
      (p.fromRoot.segments.head? ≠ some ".." →
        ((t.find? rootId p.fromRoot).isSome ↔
          p.fromRoot.segments = [] ∨ (M.entryAt p.fromRoot.segments).isSome)) ∧
      (∀ x, match M.add p x with
        | .ok M' => ∃ id t', t.add p x = .ok (id,t') ∧ t'.Represents M' ∧
            t'.find? rootId p.fromRoot = some id
        | .error e => t.add p x = .error e) ∧
      match M.remove p with
        | .ok (x,M') => ∃ t', t.remove p = .ok (x,t') ∧ t'.Represents M'
        | .error e => t.remove p = .error e := by
  intro t M
  have h : t.Shows M := Change.shows_foldl history shows_empty hh
  refine ⟨h.represents,h.find?_isSome_iff hp,fun x => ?_,?_⟩
  · have hadd := h.add hp x
    cases hM : M.add p x with
    | error e =>
      rw [hM] at hadd
      exact hadd
    | ok M' =>
      rw [hM] at hadd
      obtain ⟨id,t',hok,hs,hat⟩ := hadd
      refine ⟨id,t',hok,hs.represents,?_⟩
      have hup : p.fromRoot.segments.head? ≠ some ".." := by
        intro hup
        rw [Catalog.add_outside hup] at hM
        cases hM
      exact (hs.linked.find?_fromRoot hp hup).trans hat
  · have hrem := h.remove hp
    cases hM : M.remove p with
    | error e =>
      rw [hM] at hrem
      exact hrem
    | ok r =>
      rw [hM] at hrem
      obtain ⟨t',hok,hs⟩ := hrem
      exact ⟨t',hok,hs.represents⟩

def visit : List (Change Nat) :=
  [.add ⟨true,["a","b","c"]⟩ (.command 0),.add ⟨true,["a","d"]⟩ .group,
    .remove ⟨true,["a","b","c"]⟩]

/-- The implicit group `/a/b` goes with its last command, and `/a` stays for the sake of `/a/d`. -/
theorem represents_after_visit :
    (∀ c ∈ visit, c.path.Parsed) ∧ Path.Parsed ⟨true,["a","b"]⟩ ∧
      (visit.foldl Change.onTree empty).Represents (visit.foldl Change.onCatalog Catalog.empty) ∧
      ((visit.foldl Change.onCatalog Catalog.empty).entryAt ["a"]).isSome ∧
      (visit.foldl Change.onTree empty).remove ⟨true,["a","b"]⟩ = .error (.notFound "/a/b") := by
  have hh : ∀ c ∈ visit, c.path.Parsed := by
    intro c hc
    simp only [visit,List.mem_cons,List.not_mem_nil,or_false] at hc
    rcases hc with rfl | rfl | rfl
    · exact ⟨"/a/b/c",by decide +kernel⟩
    · exact ⟨"/a/d",by decide +kernel⟩
    · exact ⟨"/a/b/c",by decide +kernel⟩
  have hp : Path.Parsed ⟨true,["a","b"]⟩ := ⟨"/a/b",by decide +kernel⟩
  have hq : Path.fromRoot ⟨true,["a","b"]⟩ = ⟨true,["a","b"]⟩ := by decide +kernel
  have ht : Path.text ⟨true,["a","b"]⟩ = "/a/b" := by decide +kernel
  have hnone : (visit.foldl Change.onCatalog Catalog.empty).entryAt ["a","b"] = none :=
    Option.isNone_iff_eq_none.1 (by decide +kernel)
  have hM : (visit.foldl Change.onCatalog Catalog.empty).remove ⟨true,["a","b"]⟩ =
      .error (.notFound "/a/b") := by
    simp [Catalog.remove,hq,ht,hnone]
  obtain ⟨hrep,-,-,hremove⟩ := represents_after visit hh ⟨true,["a","b"]⟩ hp
  rw [hM] at hremove
  exact ⟨hh,hp,hrep,by decide +kernel,hremove⟩

end Tree
end CommandShell
