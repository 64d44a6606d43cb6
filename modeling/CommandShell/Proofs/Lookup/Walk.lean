import CommandShell.Proofs.Follow.Taken
import CommandShell.Resolution

/-! Walks through the names of a set of commands.
A name leads down to what is there, `..` up and `.` nowhere. A tree that lists the commands finds
what a walk reaches, and nothing else. -/
namespace CommandShell

variable {κ : Type}

/-- The root, the commands, and the groups above them. -/
def IsPlace (S : Set (Registered κ)) (q : List String) : Prop :=
  q = [] ∨ ∃ c ∈ S, q <+: c.path.segments

def IsGroup (S : Set (Registered κ)) (q : List String) : Prop :=
  q = [] ∨ ∃ c ∈ S, q ∈ above c.path.segments

/-- One segment leads from `q` to `r`. The root is above itself. -/
def Leads (S : Set (Registered κ)) (q : List String) (name : String) (r : List String) : Prop :=
  if name = "." then r = q
  else if name = ".." then r = q.dropLast
  else r = q ++ [name] ∧ IsPlace S r

/-- The segments lead from `q` to `r`, one after the other. -/
inductive Walk (S : Set (Registered κ)) : List String → List String → List String → Prop
  | stop {q} : Walk S q [] q
  | on {q name r segments s} (hl : Leads S q name r) (hw : Walk S r segments s) :
      Walk S q (name :: segments) s

/-- What a place is. -/
inductive Resolution.StandsAt (S : Set (Registered κ)) (q : List String) : Resolution κ → Prop
  | command {c} (hc : c ∈ S) (hq : c.path.segments = q) : StandsAt S q (.command c.path c)
  | group (hq : IsGroup S q) : StandsAt S q (.group ⟨true,q⟩)

variable {S : Set (Registered κ)} {c : Registered κ} {q r s : List String} {name : String}

theorem not_isGroup (hS : Roster S) (hc : c ∈ S) (hq : c.path.segments = q) :
    ¬IsGroup S q := by
  rintro (rfl | ⟨d,hd,hm⟩)
  · exact (hS.registrable c hc).ne_nil hq
  · obtain ⟨-,hp,hne⟩ := mem_above_iff.1 hm
    obtain rfl := hS.apart c hc d hd (hq ▸ hp)
    exact hne hq.symm

theorem IsGroup.isPlace (hq : IsGroup S q) : IsPlace S q := by
  rcases hq with rfl | ⟨c,hc,hm⟩
  · exact .inl rfl
  · exact .inr ⟨c,hc,(mem_above_iff.1 hm).2.1⟩

theorem Resolution.StandsAt.isPlace {a : Resolution κ} (ha : StandsAt S q a) : IsPlace S q := by
  cases ha with
  | command hc hq => exact .inr ⟨_,hc,hq ▸ List.prefix_rfl⟩
  | group hq => exact hq.isPlace

theorem walk_nil_iff : Walk S q [] r ↔ r = q :=
  ⟨fun hw => by cases hw; rfl,fun he => he ▸ .stop⟩

theorem walk_cons_iff {segments : List String} :
    Walk S q (name :: segments) s ↔ ∃ r, Leads S q name r ∧ Walk S r segments s := by
  constructor
  · intro hw
    cases hw with
    | on hl hw => exact ⟨_,hl,hw⟩
  · rintro ⟨r,hl,hw⟩
    exact .on hl hw

theorem Leads.isPlace (hl : Leads S q name r) (hq : IsPlace S q) : IsPlace S r := by
  unfold Leads at hl
  split_ifs at hl
  · exact hl ▸ hq
  · subst hl
    rcases hq with rfl | ⟨c,hc,hp⟩
    · exact .inl rfl
    · exact .inr ⟨c,hc,(List.dropLast_prefix q).trans hp⟩
  · exact hl.2

theorem leads_of_isName (hn : Path.IsName name) (hp : IsPlace S (q ++ [name])) :
    Leads S q name (q ++ [name]) := by
  simp [Leads,hn.2.1,hn.2.2,hp]

/-- From above a command its remaining names lead down to it. -/
theorem walk_down (hS : Roster S) (hc : c ∈ S) (segments : List String) {q : List String}
    (hq : q ++ segments = c.path.segments) : Walk S q segments c.path.segments := by
  induction segments generalizing q with
  | nil => exact walk_nil_iff.2 (by simpa using hq.symm)
  | cons name segments ih =>
    have hq' : (q ++ [name]) ++ segments = c.path.segments := by simpa using hq
    have hname : Path.IsName name :=
      (hS.registrable c hc).isName name (by simp [← hq])
    exact .on (leads_of_isName hname (.inr ⟨c,hc,_,hq'⟩)) (ih hq')

theorem isGroup_of_append (hc : c ∈ S) (hr : r ≠ []) (hq : q ++ r = c.path.segments) :
    IsGroup S q := by
  by_cases hnil : q = []
  · exact .inl hnil
  · refine .inr ⟨c,hc,mem_above_iff.2 ⟨hnil,⟨r,hq⟩,fun he => hr ?_⟩⟩
    simpa [← he] using hq

namespace Tree

variable {t : Tree (Registered κ)} {i j : NodeId} {segments : List String}

namespace Lists

theorem linked (h : t.Lists S) : t.Linked := by
  obtain ⟨M,hM,-⟩ := h
  exact hM.linked

theorem entryAt_iff (h : t.Lists S) (hq : q ≠ []) (e : Entry (Registered κ)) :
    t.entryAt q = some e ↔ (∃ c ∈ S, c.path.segments = q ∧ e = ⟨.command c,false⟩) ∨
      (∃ c ∈ S, q ∈ above c.path.segments) ∧ e = ⟨.group,true⟩ := by
  obtain ⟨M,hM,hl⟩ := h
  rw [hM.entry q hq]
  exact hl q e

theorem at?_isSome_iff (h : t.Lists S) : (∃ i, t.at? q = some i) ↔ IsPlace S q := by
  by_cases hq : q = []
  · simp [hq,IsPlace]
  constructor
  · rintro ⟨i,hi⟩
    obtain ⟨n,hn⟩ := h.linked.live hi
    rcases (h.entryAt_iff hq _).1 (entryAt_eq_some hi hn) with ⟨c,hc,rfl,-⟩ | ⟨⟨c,hc,hm⟩,-⟩
    · exact .inr ⟨c,hc,List.prefix_rfl⟩
    · exact .inr ⟨c,hc,(mem_above_iff.1 hm).2.1⟩
  · rintro (hnil | ⟨c,hc,hp⟩)
    · exact absurd hnil hq
    · have hentry : t.entryAt q ≠ none := by
        by_cases he : c.path.segments = q
        · rw [(h.entryAt_iff hq _).2 (.inl ⟨c,hc,he,rfl⟩)]
          exact Option.some_ne_none _
        · rw [(h.entryAt_iff hq _).2 (.inr ⟨⟨c,hc,mem_above_iff.2 ⟨hq,hp,Ne.symm he⟩⟩,rfl⟩)]
          exact Option.some_ne_none _
      rw [ne_eq,h.linked.entryAt_eq_none_iff] at hentry
      exact Option.ne_none_iff_exists'.1 hentry

theorem get?_eq_some_iff (h : t.Lists S) (hq : t.at? q = some i) (hname : name ≠ "/") :
    t.get? i name = some j ↔ ∃ r, Leads S q name r ∧ t.at? r = some j := by
  rw [h.linked.get?_eq_at? hq,turn,if_neg hname]
  unfold Leads
  split_ifs
  · simp
  · simp
  · constructor
    · intro hj
      exact ⟨_,⟨rfl,h.at?_isSome_iff.1 ⟨j,hj⟩⟩,hj⟩
    · rintro ⟨r,⟨rfl,-⟩,hj⟩
      exact hj

theorem foldlM_eq_some_iff (h : t.Lists S) (hq : t.at? q = some i) (hs : "/" ∉ segments) :
    segments.foldlM t.get? i = some j ↔ ∃ r, Walk S q segments r ∧ t.at? r = some j := by
  induction segments generalizing q i with
  | nil => simp [walk_nil_iff,hq]
  | cons name segments ih =>
    rw [List.mem_cons,not_or] at hs
    rw [List.foldlM_cons,Option.bind_eq_bind,Option.bind_eq_some_iff]
    constructor
    · rintro ⟨m,hm,hj⟩
      obtain ⟨r,hl,hr⟩ := (h.get?_eq_some_iff hq (Ne.symm hs.1)).1 hm
      obtain ⟨s,hw,hs⟩ := (ih hr hs.2).1 hj
      exact ⟨s,.on hl hw,hs⟩
    · rintro ⟨s,hw,hj⟩
      obtain ⟨r,hl,hw⟩ := walk_cons_iff.1 hw
      obtain ⟨m,hm⟩ := h.at?_isSome_iff.2 (hl.isPlace (h.at?_isSome_iff.1 ⟨i,hq⟩))
      exact ⟨m,(h.get?_eq_some_iff hq (Ne.symm hs.1)).2 ⟨r,hl,hm⟩,(ih hm hs.2).2 ⟨s,hw,hj⟩⟩

theorem find?_eq_some_iff (h : t.Lists S) {p : Path} (hq : t.at? q = some i)
    (hp : "/" ∉ p.segments) :
    t.find? i p = some j ↔
      ∃ r, Walk S (if p.absolute then [] else q) p.segments r ∧ t.at? r = some j := by
  have hstart : t.at? (if p.absolute then [] else q) = some (if p.absolute then rootId else i) := by
    split_ifs
    · exact at?_nil t
    · exact hq
  obtain ⟨n,hn⟩ := h.linked.live hstart
  rw [← h.foldlM_eq_some_iff hstart hp]
  simp only [find?,hn,Option.bind_some]

theorem isGroup_iff (h : t.Lists S) (hq : t.at? q = some i) :
    t.isGroup i = true ↔ IsGroup S q := by
  obtain ⟨n,hn⟩ := h.linked.live hq
  by_cases hnil : q = []
  · subst hnil
    obtain ⟨m,hm,-,hg,-⟩ := h.linked.root
    obtain rfl : rootId = i := Option.some.inj hq
    simp [isGroup,hm,hg,Payload.isGroup,IsGroup]
  have hentry := h.entryAt_iff hnil ⟨n.payload,n.implicit⟩
  rw [entryAt_eq_some hq hn] at hentry
  simp only [isGroup,hn,Option.any_some,IsGroup,hnil,false_or]
  rcases hentry.1 rfl with ⟨c,hc,hs,he⟩ | ⟨hm,he⟩
  · have hcommand : n.payload = .command c := (Entry.mk.inj he).1
    simp only [hcommand,Payload.isGroup,Bool.false_eq_true,false_iff]
    intro hm
    have hboth := (h.entryAt_iff hnil _).2 (.inr ⟨hm,rfl⟩)
    rw [(h.entryAt_iff hnil _).2 (.inl ⟨c,hc,hs,rfl⟩)] at hboth
    cases hboth
  · have hgroup : n.payload = .group := (Entry.mk.inj he).1
    simp [hgroup,Payload.isGroup,hm]

theorem ofNode?_eq_some_iff (h : t.Lists S) (hS : Roster S) (hq : t.at? q = some i)
    {a : Resolution κ} : Resolution.ofNode? t i = some a ↔ Resolution.StandsAt S q a := by
  obtain ⟨n,hn⟩ := h.linked.live hq
  have hpath := h.linked.fullPath_eq hq
  have hgroup := h.isGroup_iff hq
  simp only [isGroup,hn,Option.any_some] at hgroup
  simp only [Resolution.ofNode?,hn,Option.map_some,hpath,Option.some.injEq]
  cases hx : n.payload with
  | group =>
    rw [hx] at hgroup
    have hg : IsGroup S q := hgroup.1 rfl
    constructor
    · rintro rfl
      exact .group hg
    · intro ha
      cases ha with
      | command hc he => exact absurd hg (not_isGroup hS hc he)
      | group => rfl
  | command c =>
    rw [hx] at hgroup
    obtain ⟨hc,hp⟩ := (h.stands_command_iff hS).1 ⟨i,n,hn,hpath,hx⟩
    have hcq : c.path.segments = q := by rw [hp]
    constructor
    · rintro rfl
      exact hp ▸ .command hc hcq
    · intro ha
      cases ha with
      | command hd he =>
        obtain rfl := hS.apart c hc _ hd (hcq.trans he.symm ▸ List.prefix_rfl)
        rw [hp]
      | group hg => cases hgroup.2 hg

end Lists
end Tree
end CommandShell
