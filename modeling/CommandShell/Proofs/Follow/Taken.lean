import CommandShell.Proofs.Follow.Listing

/-! Trees that list a set of commands.
An event that fits the set is taken up by a change that succeeds, so of a whole run of such events
none is skipped, and the tree lists what the set has become. -/
namespace CommandShell

variable {κ : Type} {S : Set (Registered κ)} {c : Registered κ} {p : Path}

namespace Tree

variable {t : Tree (Registered κ)}

/-- The tree shows the commands of the set and the groups above them, and nothing else. -/
def Lists (t : Tree (Registered κ)) (S : Set (Registered κ)) : Prop :=
  ∃ M, t.Shows M ∧ M.Lists S

/-- The event is taken up by a change that succeeds: what is added finds its place free, and what
is removed is there. -/
def Takes (t : Tree (Registered κ)) : Event κ → Prop
  | .added c => t.find? rootId c.path = none ∧
      ∃ id, t.add c.path (.command c) = .ok (id,t.apply (.added c))
  | .removed p => ∃ x, t.remove p = .ok (x,t.apply (.removed p))

def TakesAll (t : Tree (Registered κ)) : List (Event κ) → Prop
  | [] => True
  | e :: events => t.Takes e ∧ (t.apply e).TakesAll events

theorem lists_empty : (empty : Tree (Registered κ)).Lists ∅ :=
  ⟨_,shows_empty,Catalog.lists_empty⟩

namespace Lists

theorem takes_added (h : t.Lists S) (hf : (Event.added c).Fits S) :
    t.Takes (.added c) ∧ (t.apply (.added c)).Lists ((Event.added c).on S) := by
  obtain ⟨M,hM,hl⟩ := h
  obtain ⟨M',hadd,hl'⟩ := hl.add hf
  have hs := hM.add hf.1.parsed (.command c)
  rw [hadd] at hs
  obtain ⟨id,t',ht,hM',-⟩ := hs
  have hfind : t.find? rootId c.path = none := by
    have hat := hM.linked.find?_eq_at? c.path.absolute hf.1.isName
    rw [← hM.linked.entryAt_eq_none_iff.1 ((hM.entry _ hf.1.ne_nil).trans (hl.free hf))]
    exact hat
  have happly : t.apply (.added c) = t' := by
    simp [apply,hfind,ht]
  rw [happly]
  exact ⟨⟨hfind,id,by rw [ht,happly]⟩,M',hM',hl'⟩

theorem takes_removed (h : t.Lists S) (hS : Roster S) (hf : (Event.removed p).Fits S) :
    t.Takes (.removed p) ∧ (t.apply (.removed p)).Lists ((Event.removed p).on S) := by
  obtain ⟨M,hM,hl⟩ := h
  obtain ⟨x,M',hrem,hl'⟩ := hl.remove hS hf
  have hp : p.Parsed := by
    obtain ⟨c,hc,rfl⟩ := hf
    exact (hS.registrable c hc).parsed
  have hs := hM.remove hp
  rw [hrem] at hs
  obtain ⟨t',ht,hM'⟩ := hs
  have happly : t.apply (.removed p) = t' := by
    simp [apply,ht]
  rw [happly]
  exact ⟨⟨x,by rw [ht,happly]⟩,M',hM',hl'⟩

theorem takes (h : t.Lists S) (hS : Roster S) {e : Event κ} (hf : e.Fits S) :
    t.Takes e ∧ (t.apply e).Lists (e.on S) := by
  cases e with
  | added c => exact h.takes_added hf
  | removed p => exact h.takes_removed hS hf

theorem takesAll (events : List (Event κ)) {t : Tree (Registered κ)} {S : Set (Registered κ)}
    (h : t.Lists S) (hS : Roster S) (hf : Event.FitAll S events) :
    t.TakesAll events ∧ (events.foldl apply t).Lists (events.foldl Event.on S) := by
  induction events generalizing t S with
  | nil => exact ⟨trivial,h⟩
  | cons e events ih =>
    obtain ⟨ht,hl⟩ := h.takes hS hf.1
    obtain ⟨h1,h2⟩ := ih hl (Event.roster_on hS hf.1) hf.2
    exact ⟨⟨ht,h1⟩,h2⟩

end Lists

/-- A node that is there, the path that it stands at, and what it holds. -/
def Stands (t : Tree (Registered κ)) (id : NodeId) (p : Path) (x : Payload (Registered κ)) :
    Prop :=
  ∃ n, t.node? id = some n ∧ t.fullPath id = p ∧ n.payload = x

theorem stands_iff {id : NodeId} {x : Payload (Registered κ)} (ht : t.Linked) :
    t.Stands id p x ↔ p.absolute = true ∧ t.at? p.segments = some id ∧
      ∃ n, t.node? id = some n ∧ n.payload = x := by
  constructor
  · rintro ⟨n,hn,rfl,hx⟩
    obtain ⟨r,hr⟩ := ht.reached hn
    rw [ht.fullPath_eq hr]
    exact ⟨rfl,hr,n,hn,hx⟩
  · rintro ⟨habs,hat,n,hn,hx⟩
    refine ⟨n,hn,?_,hx⟩
    rw [ht.fullPath_eq hat]
    exact Path.ext habs.symm rfl

theorem Shows.stands_iff {M : Catalog (Registered κ)} {x : Payload (Registered κ)}
    (hM : t.Shows M) (hp : p.segments ≠ []) :
    (∃ id, t.Stands id p x) ↔
      p.absolute = true ∧ ∃ b, M.entryAt p.segments = some ⟨x,b⟩ := by
  simp only [Tree.stands_iff hM.linked]
  constructor
  · rintro ⟨id,habs,hat,n,hn,rfl⟩
    exact ⟨habs,n.implicit,(hM.entry _ hp).symm.trans (entryAt_eq_some hat hn)⟩
  · rintro ⟨habs,b,he⟩
    rw [← hM.entry _ hp,entryAt,Option.map_eq_some_iff] at he
    obtain ⟨n,hn,hx⟩ := he
    obtain ⟨id,hid,hn⟩ := Option.bind_eq_some_iff.1 hn
    exact ⟨id,habs,hid,n,hn,congrArg Entry.payload hx⟩

namespace Lists

theorem stands_inj (h : t.Lists S) {id other : NodeId} {x y : Payload (Registered κ)}
    (hx : t.Stands id p x) (hy : t.Stands other p y) : id = other := by
  obtain ⟨M,hM,-⟩ := h
  obtain ⟨-,hid,-⟩ := (stands_iff hM.linked).1 hx
  obtain ⟨-,hother,-⟩ := (stands_iff hM.linked).1 hy
  exact Option.some.inj (hid.symm.trans hother)

theorem stands_command_iff (h : t.Lists S) (hS : Roster S) :
    (∃ id, t.Stands id p (.command c)) ↔ c ∈ S ∧ c.path = p := by
  obtain ⟨M,hM,hl⟩ := h
  by_cases hp : p.segments = []
  · constructor
    · rintro ⟨id,hid⟩
      obtain ⟨-,hat,n,hn,hx⟩ := (stands_iff hM.linked).1 hid
      rw [hp,at?_nil] at hat
      obtain ⟨k,hk,-,hg,-⟩ := hM.linked.root
      rw [← Option.some.inj hat,hk] at hn
      rw [Option.some.inj hn,hx] at hg
      cases hg
    · rintro ⟨hc,rfl⟩
      exact absurd hp (hS.registrable c hc).ne_nil
  · rw [hM.stands_iff hp]
    constructor
    · rintro ⟨habs,b,he⟩
      rcases (hl _ _).1 he with ⟨d,hd,hs,hx⟩ | ⟨-,hx⟩
      · obtain rfl := Payload.command.inj (Entry.mk.inj hx).1
        exact ⟨hd,Path.ext ((hS.registrable c hd).1.trans habs.symm) hs⟩
      · cases (Entry.mk.inj hx).1
    · rintro ⟨hc,rfl⟩
      exact ⟨(hS.registrable c hc).1,false,hl.command hc⟩

theorem stands_group_iff (h : t.Lists S) :
    (∃ id, id ≠ rootId ∧ t.Stands id p .group) ↔
      ∃ c ∈ S, p.absolute = true ∧ p.segments ∈ above c.path.segments := by
  obtain ⟨M,hM,hl⟩ := h
  have hroot : ∀ {id}, t.Stands id p .group → (id ≠ rootId ↔ p.segments ≠ []) := by
    intro id hid
    obtain ⟨-,hat,-⟩ := (stands_iff hM.linked).1 hid
    refine ⟨?_,fun hp => hM.linked.ne_root hp hat⟩
    intro hne hp
    rw [hp,at?_nil] at hat
    exact hne (Option.some.inj hat).symm
  by_cases hp : p.segments = []
  · constructor
    · rintro ⟨id,hne,hid⟩
      exact absurd hp ((hroot hid).1 hne)
    · rintro ⟨c,-,-,hm⟩
      exact absurd hp (mem_above_iff.1 hm).1
  have hiff : (∃ id, id ≠ rootId ∧ t.Stands id p .group) ↔ ∃ id, t.Stands id p .group :=
    exists_congr fun id => ⟨And.right,fun hid => ⟨(hroot hid).2 hp,hid⟩⟩
  rw [hiff,hM.stands_iff hp]
  constructor
  · rintro ⟨habs,b,he⟩
    rcases (hl _ _).1 he with ⟨d,-,-,hx⟩ | ⟨⟨d,hd,hm⟩,-⟩
    · cases (Entry.mk.inj hx).1
    · exact ⟨d,hd,habs,hm⟩
  · rintro ⟨c,hc,habs,hm⟩
    exact ⟨habs,true,hl.group hc hm⟩

end Lists
end Tree
end CommandShell
