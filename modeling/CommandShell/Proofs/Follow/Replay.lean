import CommandShell.Namespace
import CommandShell.Proofs.PathText
import CommandShell.Proofs.Tree.Undoing

/-! Events that come again.
An event asks for one change of the tree. What it added is found where it looks for it, and what it
removed is found no more, so the same event has nothing left to do. -/
namespace CommandShell

theorem Descriptor.parsed_named {κ : Type} (name : String) (action : κ) :
    (named name action).name.Parsed := by
  unfold named
  split
  case h_1 p hp => exact Path.Parsed.fromRoot ⟨name,hp⟩
  case h_2 => exact (⟨"/",by decide +kernel⟩ : Path.root.Parsed)

namespace Change

variable {α : Type}

def Refused (t : Tree α) (e : TreeError) : Change α → Prop
  | add p x => t.add p x = .error e
  | remove p => t.remove p = .error e

theorem onTree_of_refused {t : Tree α} {e : TreeError} {c : Change α} (h : c.Refused t e) :
    c.onTree t = t := by
  cases c <;> simp only [Refused] at h <;> simp only [onTree,h]

end Change

variable {κ : Type}

namespace Event

/-- A command has a name that was read from a text. What is to be removed may be any path. -/
def Named : Event κ → Prop
  | added c => c.path.Parsed
  | removed _ => True

/-- The call that the event asks for. -/
def change : Event κ → Change (Registered κ)
  | added c => .add c.path (.command c)
  | removed p => .remove p

def Present (t : Tree (Registered κ)) : Event κ → Prop
  | added c => ∃ id n d, t.find? Tree.rootId c.path = some id ∧ t.node? id = some n ∧
      n.payload = .command d ∧ c.same d = true
  | removed _ => False

/-- What keeps the tree from taking up an event: its path leads out of the tree, or something is at
the path of a command or a command above it, or nothing is there to be removed but the root. -/
def Barred (t : Tree (Registered κ)) : Event κ → Prop
  | added c => c.path.segments.head? = some ".." ∨ (t.find? Tree.rootId c.path).isSome ∨
      ∃ q ∈ above c.path.segments, ∃ id n d, t.find? Tree.rootId ⟨true,q⟩ = some id ∧
        t.node? id = some n ∧ n.payload = .command d
  | removed p => p.fromRoot.segments.head? = some ".." ∨ t.find? Tree.rootId p.fromRoot = none ∨
      t.find? Tree.rootId p.fromRoot = some Tree.rootId

end Event

namespace Tree

variable {t t' : Tree (Registered κ)} {M : Catalog (Registered κ)} {e : Event κ}
  {c : Registered κ} {p : Path} {id : NodeId}

theorem any_same_iff_present : ((t.find? rootId c.path).bind t.node?).any
    (fun n => n.payload.command?.any c.same) = true ↔ (Event.added c).Present t := by
  simp only [Event.Present,Option.any_eq_true,Option.bind_eq_some_iff]
  constructor
  · rintro ⟨n,⟨id,hid,hn⟩,d,hd,hs⟩
    refine ⟨id,n,d,hid,hn,?_,hs⟩
    cases hp : n.payload with
    | group => simp [hp,Payload.command?] at hd
    | command d' =>
      simp only [hp,Payload.command?,Option.some.injEq] at hd
      rw [hd]
  · rintro ⟨id,n,d,hid,hn,hp,hs⟩
    exact ⟨n,⟨id,hid,hn⟩,d,by rw [hp]; rfl,hs⟩

theorem apply_of_present (h : e.Present t) : t.apply e = t := by
  cases e with
  | added c => simp only [apply,any_same_iff_present.2 h,if_true]
  | removed p => exact h.elim

/-- An event does what its call does, unless its command is there. -/
theorem apply_of_not_present (h : ¬e.Present t) : t.apply e = e.change.onTree t := by
  cases e with
  | added c =>
    simp only [apply,if_neg fun hany => h (any_same_iff_present.1 hany),Event.change,Change.onTree]
    cases t.add c.path (.command c) <;> rfl
  | removed p =>
    simp only [apply,Event.change,Change.onTree]
    cases t.remove p <;> rfl

theorem apply_of_refused {err : TreeError} (h : e.change.Refused t err) : t.apply e = t := by
  by_cases hp : e.Present t
  · exact apply_of_present hp
  · rw [apply_of_not_present hp,Change.onTree_of_refused h]

theorem Linked.refused_removed_iff (ht : t.Linked) :
    (∃ err, (Event.removed p).change.Refused t err) ↔ (Event.removed p).Barred t := by
  change (∃ err, t.remove p = .error err) ↔ _ ∨ _ ∨ _
  by_cases hup : p.fromRoot.segments.head? = some ".."
  · simp [Tree.remove,locate,hup,bind,Except.bind]
  rw [remove_eq hup]
  cases hfind : t.find? rootId p.fromRoot with
  | none => simp
  | some id =>
    obtain ⟨n,hn⟩ := ht.live (ht.at?_turns hfind)
    by_cases hroot : id = rootId
    · subst hroot
      simp [hn]
    · simp [hn,hroot,hup]

section Shown

variable (h : t.Shows M)
include h

theorem Shows.isCommand_iff {q : List String} (hne : q ≠ []) (hq : ∀ name ∈ q, Path.IsName name) :
    M.isCommand q = true ↔ ∃ id n d, t.find? rootId ⟨true,q⟩ = some id ∧ t.node? id = some n ∧
      n.payload = .command d := by
  rw [← Bool.not_eq_false,isCommand_eq_false_iff,h.linked.find?_eq_at? true hq]
  constructor
  · intro hcommand
    by_contra hnone
    refine hcommand fun y hy => ?_
    rw [← h.entry q hne,entryAt,Option.map_eq_some_iff] at hy
    obtain ⟨n,hn,rfl⟩ := hy
    obtain ⟨id,hid,hn⟩ := Option.bind_eq_some_iff.1 hn
    cases hp : n.payload with
    | group => rfl
    | command d => exact absurd ⟨id,n,d,hid,hn,hp⟩ hnone
  · rintro ⟨id,n,d,hid,hn,hp⟩ hall
    have hgroup := hall _ ((h.entry q hne).symm.trans (entryAt_eq_some hid hn))
    rw [hp] at hgroup
    cases hgroup

/-- A command is refused for what the tree has in its way, and for nothing else. -/
theorem Shows.refused_added_iff (hc : c.path.Parsed) :
    (∃ err, (Event.added c).change.Refused t err) ↔ (Event.added c).Barred t := by
  have hnormal : c.path.fromRoot = c.path := c.descriptor.name_normal
  have hs := h.add hc (.command c)
  have hanswer : (∃ err, (Event.added c).change.Refused t err) ↔
      ∃ err, M.add c.path (.command c) = .error err := by
    change (∃ err, t.add c.path (.command c) = .error err) ↔ _
    cases hM : M.add c.path (.command c) with
    | error err => rw [hM] at hs; simp [hs]
    | ok M' =>
      rw [hM] at hs
      obtain ⟨_,_,hok,-⟩ := hs
      simp [hok]
  rw [hanswer,Catalog.exists_error_iff,hnormal,Event.Barred]
  by_cases hup : c.path.segments.head? = some ".."
  · simp [hup]
  have hfound := h.find?_isSome_iff hc
  have hname := Path.isName_of_mem_fromRoot hc
  rw [hnormal] at hfound hname
  refine or_congr_right (or_congr (hfound hup).symm (exists_congr fun q => and_congr_right ?_))
  intro hq
  obtain ⟨hne,hpre,-⟩ := mem_above_iff.1 hq
  exact h.isCommand_iff hne fun name hm => hname hup name (hpre.subset hm)

theorem Shows.present_of_add (hc : c.path.Parsed) (hadd : t.add c.path (.command c) = .ok (id,t')) :
    (Event.added c).Present t' := by
  obtain ⟨M',hM,hs⟩ := h.exists_of_add hc hadd
  obtain ⟨hup,hne,hfree,hgroups,rfl⟩ := Catalog.exists_insert_of_add hM
  have hentry := (hs.entry _ hne).trans (Catalog.entryAt_insert M (.command c) hne hfree hgroups _)
  rw [if_pos rfl,entryAt,Option.map_eq_some_iff] at hentry
  obtain ⟨n,hn,hx⟩ := hentry
  obtain ⟨i,hi,hn⟩ := Option.bind_eq_some_iff.1 hn
  have hfind := (hs.linked.find?_fromRoot hc hup).trans hi
  rw [show c.path.fromRoot = c.path from c.descriptor.name_normal] at hfind
  exact ⟨i,n,c,hfind,hn,congrArg Entry.payload hx,by simp [Registered.same]⟩

theorem Shows.find?_of_remove {x : Payload (Registered κ)} (hrem : t.remove p = .ok (x,t')) :
    t.find? rootId p.fromRoot ≠ none ∧ t'.find? rootId p.fromRoot = none ∧ t'.Linked := by
  have ht := h.linked
  have hup : p.fromRoot.segments.head? ≠ some ".." := by
    intro hup
    simp [Tree.remove,locate,hup,bind,Except.bind] at hrem
  rw [remove_eq hup] at hrem
  cases hfind : t.find? rootId p.fromRoot with
  | none => simp [hfind] at hrem
  | some id =>
    have hat := ht.at?_turns hfind
    obtain ⟨n,hn⟩ := ht.live hat
    simp only [hfind,hn] at hrem
    split_ifs at hrem with hroot
    obtain ⟨rfl,rfl⟩ := Prod.mk.inj (Except.ok.inj hrem)
    have hne : p.fromRoot.segments.foldl turn [] ≠ [] := by
      intro hnil
      rw [hnil,at?_nil] at hat
      exact hroot (Option.some.inj hat).symm
    have hs := h.detach hne hat hn
    -- a walk that still arrived would end where its turns lead, and there nothing is left
    refine ⟨Option.some_ne_none id,?_,hs.linked⟩
    by_contra hstill
    obtain ⟨j,hj⟩ := Option.ne_none_iff_exists'.1 hstill
    have hgone := hs.entry _ hne
    rw [Catalog.entryAt_erase,if_pos (.inl List.prefix_rfl),hs.linked.entryAt_eq_none_iff,
      hs.linked.at?_turns hj] at hgone
    cases hgone

theorem Shows.refused_iff (he : e.Named) :
    (∃ err, e.change.Refused t err) ↔ e.Barred t := by
  cases e with
  | added c => exact h.refused_added_iff he
  | removed p => exact h.linked.refused_removed_iff

/-- Applied once, an event has nothing more to do, and it had something to do if the tree took it
up. -/
theorem Shows.apply_apply (he : e.Named) :
    (t.apply e).apply e = t.apply e ∧
      (t.apply e = t → e.Present t ∨ ∃ err, e.change.Refused t err) := by
  by_cases hp : e.Present t
  · rw [apply_of_present hp,apply_of_present hp]
    exact ⟨rfl,fun _ => .inl hp⟩
  by_cases hr : ∃ err, e.change.Refused t err
  · obtain ⟨err,hr⟩ := hr
    rw [apply_of_refused hr,apply_of_refused hr]
    exact ⟨rfl,fun _ => .inr ⟨err,hr⟩⟩
  -- now the tree takes the event up
  cases e with
  | added c =>
    cases hadd : t.add c.path (.command c) with
    | error err => exact absurd ⟨err,hadd⟩ hr
    | ok r =>
      have happly : t.apply (.added c) = r.2 := by
        rw [apply_of_not_present hp]
        simp only [Event.change,Change.onTree,hadd]
      have hpresent := h.present_of_add he hadd
      rw [happly]
      exact ⟨apply_of_present hpresent,fun hsame => absurd (hsame ▸ hpresent) hp⟩
  | removed p =>
    cases hrem : t.remove p with
    | error err => exact absurd ⟨err,hrem⟩ hr
    | ok r =>
      have happly : t.apply (.removed p) = r.2 := by simp only [apply,hrem]
      obtain ⟨hfound,hgone,hlinked⟩ := h.find?_of_remove hrem
      obtain ⟨err,hrefused⟩ := hlinked.refused_removed_iff.2 (.inr (.inl hgone))
      rw [happly]
      exact ⟨apply_of_refused hrefused,fun hsame => absurd (hsame ▸ hgone) hfound⟩

end Shown

end Tree

/-- What may happen to a tree: somebody calls it, or it follows a registry. -/
inductive Revision (κ : Type)
  | call (c : Change (Registered κ))
  | event (e : Event κ)

namespace Revision

variable {t : Tree (Registered κ)}

def change : Revision κ → Change (Registered κ)
  | call c => c
  | event e => e.change

def onTree (t : Tree (Registered κ)) : Revision κ → Tree (Registered κ)
  | call c => c.onTree t
  | event e => t.apply e

theorem shows_on {M : Catalog (Registered κ)} (h : t.Shows M) {r : Revision κ}
    (hr : r.change.path.Parsed) : ∃ M', (r.onTree t).Shows M' := by
  cases r with
  | call c => exact ⟨_,Change.shows_on h hr⟩
  | event e =>
    by_cases hp : e.Present t
    · exact ⟨M,by rwa [onTree,Tree.apply_of_present hp]⟩
    · rw [onTree,Tree.apply_of_not_present hp]
      exact ⟨_,Change.shows_on h hr⟩

theorem shows_foldl (history : List (Revision κ)) {M : Catalog (Registered κ)} (h : t.Shows M)
    (hh : ∀ r ∈ history, r.change.path.Parsed) : ∃ M', (history.foldl onTree t).Shows M' := by
  induction history generalizing t M with
  | nil => exact ⟨M,h⟩
  | cons r history ih =>
    obtain ⟨M',hM'⟩ := shows_on h (hh r (by simp))
    exact ih hM' fun r' hr' => hh r' (by simp [hr'])

end Revision

namespace Tree

/-- After every history of calls and events, an event that comes a second time changes nothing. Nor
does one that is refused, and apart from these only a command that is there already. An event is
refused exactly if the tree has something in its way. -/
theorem replay_after (history : List (Revision κ)) (hh : ∀ r ∈ history, r.change.path.Parsed)
    (e : Event κ) (he : e.Named) :
    let t := history.foldl Revision.onTree empty
    (t.apply e).apply e = t.apply e ∧
    (∀ err, e.change.Refused t err → t.apply e = t) ∧
    (t.apply e = t → e.Present t ∨ ∃ err, e.change.Refused t err) ∧
    ((∃ err, e.change.Refused t err) ↔ e.Barred t) := by
  intro t
  obtain ⟨M,h⟩ := Revision.shows_foldl history shows_empty hh
  obtain ⟨hagain,hidle⟩ := h.apply_apply he
  exact ⟨hagain,fun err => apply_of_refused,hidle,h.refused_iff he⟩

def settled : List (Revision Unit) :=
  [.event (.added ⟨0,.named "/tool/a" ()⟩),.call (.add ⟨true,["box"]⟩ .group),
    .event (.removed ⟨true,["..","box"]⟩)]

/-- A command in a new group comes twice. One in the place of a group never comes in. -/
theorem replay_after_settled :
    let t := settled.foldl Revision.onTree empty
    let e : Event Unit := .added ⟨1,.named "tool/./deep/b" ()⟩
    let e' : Event Unit := .added ⟨2,.named "/tool" ()⟩
    (∀ r ∈ settled, r.change.path.Parsed) ∧ e.Named ∧ e'.Named ∧
      (t.apply e).apply e = t.apply e ∧ (t.apply e).size = t.size + 2 ∧
      e'.Barred t ∧ t.apply e' = t := by
  intro t e e'
  have hh : ∀ r ∈ settled, r.change.path.Parsed := by
    intro r hr
    simp only [settled,List.mem_cons,List.not_mem_nil,or_false] at hr
    rcases hr with rfl | rfl | rfl
    · exact Descriptor.parsed_named "/tool/a" ()
    · exact ⟨"/box",by decide +kernel⟩
    · exact ⟨"/../box",by decide +kernel⟩
  have he : e.Named := Descriptor.parsed_named _ _
  have he' : e'.Named := Descriptor.parsed_named _ _
  have hagain := (replay_after settled hh e he).1
  obtain ⟨-,hrefused,-,hiff⟩ := replay_after settled hh e' he'
  have hbarred : e'.Barred t := .inr (.inl (by decide +kernel))
  obtain ⟨err,herr⟩ := hiff.2 hbarred
  exact ⟨hh,he,he',hagain,by decide +kernel,hbarred,hrefused err herr⟩

end Tree
end CommandShell
