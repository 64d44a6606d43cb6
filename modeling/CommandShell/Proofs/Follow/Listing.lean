import CommandShell.Proofs.Follow.Roster
import CommandShell.Proofs.Tree.Refinement

/-! Maps that list a set of commands.
A command that fits into the set can be added, a listed one can be removed, and the map then lists
the set after the change: no group is missing and none is left behind. -/
namespace CommandShell

variable {κ : Type} {S : Set (Registered κ)} {c : Registered κ} {p : Path}

namespace Catalog

variable {M : Catalog (Registered κ)}

/-- The entries are the commands of the set, and an implicit group for each path above one. -/
def Lists (M : Catalog (Registered κ)) (S : Set (Registered κ)) : Prop :=
  ∀ q e, M.entryAt q = some e ↔
    (∃ c ∈ S, c.path.segments = q ∧ e = ⟨.command c,false⟩) ∨
      (∃ c ∈ S, q ∈ above c.path.segments) ∧ e = ⟨.group,true⟩

theorem lists_empty : (empty : Catalog (Registered κ)).Lists ∅ := by
  intro q e
  simp

namespace Lists

theorem command (h : M.Lists S) (hc : c ∈ S) :
    M.entryAt c.path.segments = some ⟨.command c,false⟩ :=
  (h _ _).2 (.inl ⟨c,hc,rfl,rfl⟩)

theorem group (h : M.Lists S) (hc : c ∈ S) {q : List String} (hq : q ∈ above c.path.segments) :
    M.entryAt q = some ⟨.group,true⟩ :=
  (h _ _).2 (.inr ⟨⟨c,hc,hq⟩,rfl⟩)

theorem exists_prefix (h : M.Lists S) {q : List String} {e : Entry (Registered κ)}
    (he : M.entryAt q = some e) : ∃ c ∈ S, q <+: c.path.segments := by
  rcases (h q e).1 he with ⟨c,hc,rfl,-⟩ | ⟨⟨c,hc,hq⟩,-⟩
  · exact ⟨c,hc,List.prefix_rfl⟩
  · exact ⟨c,hc,(mem_above_iff.1 hq).2.1⟩

theorem listed_added_iff {q : List String} {e : Entry (Registered κ)} :
    ((∃ d ∈ (Event.added c).on S, d.path.segments = q ∧ e = ⟨.command d,false⟩) ∨
      (∃ d ∈ (Event.added c).on S, q ∈ above d.path.segments) ∧ e = ⟨.group,true⟩) ↔
    (c.path.segments = q ∧ e = ⟨.command c,false⟩) ∨
      (q ∈ above c.path.segments ∧ e = ⟨.group,true⟩) ∨
      (∃ d ∈ S, d.path.segments = q ∧ e = ⟨.command d,false⟩) ∨
      (∃ d ∈ S, q ∈ above d.path.segments) ∧ e = ⟨.group,true⟩ := by
  simp only [Event.on,Set.mem_insert_iff,exists_eq_or_imp]
  rw [or_and_right,or_or_or_comm,or_assoc]

section Added

variable (h : M.Lists S) (hf : (Event.added c).Fits S)
include h hf

theorem free : M.entryAt c.path.segments = none := by
  by_contra hne
  obtain ⟨e,he⟩ := Option.ne_none_iff_exists'.1 hne
  obtain ⟨d,hd,hp⟩ := h.exists_prefix he
  exact (hf.2 d hd).1 hp

theorem eq_group {r : List String} {e : Entry (Registered κ)} (hr : r ∈ above c.path.segments)
    (he : M.entryAt r = some e) : e = ⟨.group,true⟩ := by
  rcases (h r e).1 he with ⟨d,hd,rfl,-⟩ | ⟨-,rfl⟩
  · exact absurd (mem_above_iff.1 hr).2.1 (hf.2 d hd).2
  · rfl

/-- A command apart from the listed ones can be added, and only it and the groups above it are
new. -/
theorem add : ∃ M', M.add c.path (.command c) = .ok M' ∧ M'.Lists ((Event.added c).on S) := by
  have hq := hf.1.fromRoot_eq
  have hcommand : ∀ r ∈ above c.path.segments, M.isCommand r = false := fun r hr =>
    Tree.isCommand_eq_false_iff.2 fun e he => h.eq_group hf hr he ▸ rfl
  have hadd := add_free (M := M) (p := c.path) (x := .command c)
    (by rw [hq]; exact hf.1.not_outside) (by rw [hq]; exact hf.1.ne_nil)
    (by rw [hq]; exact hcommand) (by rw [hq]; exact h.free hf)
  refine ⟨_,hadd,fun r e => ?_⟩
  rw [entryAt_insert,hq,listed_added_iff,← h r e]
  by_cases hr : r = c.path.segments
  · have hself : c.path.segments ∉ above c.path.segments := fun hm => (mem_above_iff.1 hm).2.2 rfl
    subst hr
    simp [h.free hf,hself,eq_comm]
  by_cases ha : r ∈ above c.path.segments
  · cases he : M.entryAt r with
    | none => simp [hr,Ne.symm hr,ha,eq_comm]
    | some e' => simp [hr,Ne.symm hr,ha,h.eq_group hf ha he,eq_comm]
  · simp [hr,Ne.symm hr,ha]

end Added

theorem mem_lost_iff (h : M.Lists S) (hS : Roster S) (hc : c ∈ S) {r : List String} :
    r ∈ M.lost c.path.segments ↔
      r ∈ above c.path.segments ∧ ∀ d ∈ S, r <+: d.path.segments → d = c := by
  constructor
  · intro hr
    refine ⟨(Catalog.mem_lost_iff.1 hr).1,fun d hd => ?_⟩
    rintro ⟨s,hs⟩
    have hentry : M.entryAt (r ++ s) = some ⟨.command d,false⟩ := hs ▸ h.command hd
    rcases lost_of_below hr hentry with hp | hl
    · exact (hS.apart c hc d hd (hs ▸ hp)).symm
    · exact hS.apart d hd c hc (hs ▸ (mem_above_iff.1 (Catalog.mem_lost_iff.1 hl).1).2.1)
  · rintro ⟨hr,honly⟩
    refine Catalog.mem_lost_iff.2 ⟨hr,fun s hs hrs => ?_⟩
    refine spent_iff.2 ⟨⟨_,h.group hc hs,rfl⟩,fun k e he hk => ?_⟩
    obtain ⟨d,hd,hp⟩ := h.exists_prefix he
    have hsk : s <+: k := hk ▸ List.dropLast_prefix k
    rw [← honly d hd (hrs.trans (hsk.trans hp))]
    exact hp

section Removed

variable (h : M.Lists S) (hS : Roster S) (hc : c ∈ S) {r : List String}
include h hS hc

theorem eq_of_gone (hg : c.path.segments <+: r ∨ r ∈ M.lost c.path.segments) {d : Registered κ}
    (hd : d ∈ S) (hr : r <+: d.path.segments) : d = c := by
  rcases hg with hcr | hl
  · exact (hS.apart c hc d hd (hcr.trans hr)).symm
  · exact ((h.mem_lost_iff hS hc).1 hl).2 d hd hr

theorem exists_other (hr : r ∈ above c.path.segments) (hl : r ∉ M.lost c.path.segments) :
    ∃ d ∈ S, d ≠ c ∧ r ∈ above d.path.segments := by
  rw [h.mem_lost_iff hS hc] at hl
  have hex : ∃ d ∈ S, r <+: d.path.segments ∧ d ≠ c := by
    by_contra hno
    refine hl ⟨hr,fun d hd hp => ?_⟩
    by_contra hne
    exact hno ⟨d,hd,hp,hne⟩
  obtain ⟨d,hd,hp,hne⟩ := hex
  refine ⟨d,hd,hne,mem_above_iff.2 ⟨(mem_above_iff.1 hr).1,hp,?_⟩⟩
  rintro rfl
  exact hne (hS.apart d hd c hc (mem_above_iff.1 hr).2.1)

end Removed

/-- A listed command can be removed, and only it and the groups that lead to it alone go. -/
theorem remove (h : M.Lists S) (hS : Roster S) (hf : (Event.removed p).Fits S) :
    ∃ x M', M.remove p = .ok (x,M') ∧ M'.Lists ((Event.removed p).on S) := by
  obtain ⟨c,hc,rfl⟩ := hf
  have hreg := hS.registrable c hc
  have hother : ∀ d ∈ S, d.path ≠ c.path ↔ d ≠ c := by
    intro d hd
    refine ⟨fun hp he => hp (he ▸ rfl),fun hne hp => hne ?_⟩
    exact hS.apart d hd c hc (hp ▸ List.prefix_rfl)
  have hrem : M.remove c.path = .ok (.command c,M.erase c.path.segments) := by
    simp only [Catalog.remove,hreg.fromRoot_eq,if_neg hreg.not_outside,if_neg hreg.ne_nil,
      h.command hc]
  refine ⟨_,_,hrem,fun r e => ?_⟩
  rw [entryAt_erase]
  by_cases hgone : c.path.segments <+: r ∨ r ∈ M.lost c.path.segments
  · rw [if_pos hgone]
    refine ⟨fun he => absurd he (by simp),?_⟩
    rintro (⟨d,⟨hd,hne⟩,rfl,-⟩ | ⟨⟨d,⟨hd,hne⟩,hm⟩,-⟩)
    · exact absurd (h.eq_of_gone hS hc hgone hd List.prefix_rfl) ((hother d hd).1 hne)
    · exact absurd (h.eq_of_gone hS hc hgone hd (mem_above_iff.1 hm).2.1) ((hother d hd).1 hne)
  · rw [if_neg hgone,h r e]
    rw [not_or] at hgone
    constructor
    · rintro (⟨d,hd,rfl,he⟩ | ⟨⟨d,hd,hm⟩,he⟩)
      · refine .inl ⟨d,⟨hd,(hother d hd).2 ?_⟩,rfl,he⟩
        rintro rfl
        exact hgone.1 List.prefix_rfl
      · by_cases hdc : d = c
        · subst hdc
          obtain ⟨d',hd',hne,hm'⟩ := h.exists_other hS hd hm hgone.2
          exact .inr ⟨⟨d',⟨hd',(hother d' hd').2 hne⟩,hm'⟩,he⟩
        · exact .inr ⟨⟨d,⟨hd,(hother d hd).2 hdc⟩,hm⟩,he⟩
    · rintro (⟨d,⟨hd,-⟩,hs⟩ | ⟨⟨d,⟨hd,-⟩,hm⟩,he⟩)
      · exact .inl ⟨d,hd,hs⟩
      · exact .inr ⟨⟨d,hd,hm⟩,he⟩

end Lists
end Catalog

end CommandShell
