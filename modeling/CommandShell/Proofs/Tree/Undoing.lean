import CommandShell.Proofs.Tree.Shape
import CommandShell.Proofs.Tree.WellFormed

/-! Removing what was added last.
The groups that were made on the way go with it. A group that was there stays, since a group that
goes when it is empty is never found empty. -/
namespace CommandShell

namespace Catalog

variable {α : Type} {M M' : Catalog α} {p : Path} {x : Payload α} {q r : List String} {e : Entry α}

section Insert

variable {hne : q ≠ []} {hfree : M.entryAt q = none} {hc : ∀ r ∈ above q, M.isCommand r = false}

theorem spent_insert (hr : r ∈ above q) (hnone : M.entryAt r = none) :
    (M.insert q x hne hfree hc).spent q r = true := by
  have hat := entryAt_insert M x hne hfree hc
  obtain ⟨hrne,-,hrq⟩ := mem_above_iff.1 hr
  refine spent_iff.2 ⟨⟨_,by rw [hat,if_neg hrq,if_pos ⟨hr,hnone⟩],rfl⟩,fun k e hk hd => ?_⟩
  rw [hat] at hk
  split_ifs at hk with hkq habove
  · exact hkq ▸ List.prefix_rfl
  · exact (mem_above_iff.1 habove.1).2.1
  -- any other child was there before, and `r` above it
  · rcases List.eq_nil_or_concat' k with rfl | ⟨init,name,rfl⟩
    · simp at hk
    · obtain rfl : init = r := by simpa using hd
      have habove : init ∈ above (init ++ [name]) :=
        Tree.mem_above_concat_iff.2 ⟨hrne,List.prefix_rfl⟩
      exact absurd habove (notMem_above_of_mem hnone hk)

/-- What was above `q` stays. If it is an implicit group then something was below it, and what is on
the way to `q` there stays too. -/
theorem Tidy.notMem_lost_insert (hM : M.Tidy) (s : List String) (hq : r ++ s = q)
    (he : M.entryAt r = some e) : r ∉ (M.insert q x hne hfree hc).lost q := by
  have hat := entryAt_insert M x hne hfree hc
  intro hr
  induction s generalizing r e with
  | nil =>
    obtain ⟨-,-,hrq⟩ := mem_above_iff.1 (mem_lost_iff.1 hr).1
    exact hrq (by simpa using hq)
  | cons name s ih =>
    obtain ⟨ha,hspent⟩ := mem_lost_iff.1 hr
    obtain ⟨⟨e',he',hi⟩,hchildren⟩ := spent_iff.1 (hspent r ha List.prefix_rfl)
    rw [hat,if_neg (mem_above_iff.1 ha).2.2,if_neg (by simp [he]),he] at he'
    obtain rfl := Option.some.inj he'
    obtain ⟨other,k,hk⟩ := hM.needed he hi
    have hkept : ∃ k, (M.insert q x hne hfree hc).entryAt (r ++ [other]) = some k := by
      rw [hat]
      split_ifs
      · exact ⟨_,rfl⟩
      · exact ⟨_,rfl⟩
      · exact ⟨k,hk⟩
    obtain ⟨_,hkept⟩ := hkept
    have hon : r ++ [other] <+: q := hchildren _ _ hkept (by simp)
    obtain rfl : other = name := by simpa [← hq] using hon
    have hkq : r ++ [other] ≠ q := by
      intro hkq
      rw [hkq,hfree] at hk
      cases hk
    exact ih (by simpa using hq) hk (mem_lost_iff.2 ⟨mem_above_iff.2 ⟨by simp,hon,hkq⟩,
      fun u hu hp => hspent u hu ((List.prefix_append r [other]).trans hp)⟩)

theorem Tidy.mem_lost_insert_iff (hM : M.Tidy) :
    r ∈ (M.insert q x hne hfree hc).lost q ↔ r ∈ above q ∧ M.entryAt r = none := by
  constructor
  · intro hr
    have ha := (mem_lost_iff.1 hr).1
    obtain ⟨s,hs⟩ := (mem_above_iff.1 ha).2.1
    refine ⟨ha,?_⟩
    cases he : M.entryAt r with
    | none => rfl
    | some e => exact absurd hr (hM.notMem_lost_insert s hs he)
  · rintro ⟨ha,hnone⟩
    refine mem_lost_iff.2 ⟨ha,fun s hs hrs => spent_insert hs ?_⟩
    by_cases hsr : s = r
    · rw [hsr,hnone]
    · cases he : M.entryAt s with
      | none => rfl
      | some e =>
        have hrs : r ∈ above s := mem_above_iff.2 ⟨(mem_above_iff.1 ha).1,hrs,Ne.symm hsr⟩
        exact absurd hrs (notMem_above_of_mem hnone he)

theorem Tidy.entryAt_erase_insert (hM : M.Tidy) (r : List String) :
    ((M.insert q x hne hfree hc).erase q).entryAt r = M.entryAt r := by
  rw [entryAt_erase]
  split_ifs with hgone
  · rcases hgone with hqr | hlost
    -- nothing was below `q`
    · cases he : M.entryAt r with
      | none => rfl
      | some e =>
        have hqr' : q ≠ r := by
          rintro rfl
          rw [hfree] at he
          cases he
        exact absurd (mem_above_iff.2 ⟨hne,hqr,hqr'⟩) (notMem_above_of_mem hfree he)
    · exact (hM.mem_lost_insert_iff.1 hlost).2.symm
  · obtain ⟨hqr,hlost⟩ := not_or.1 hgone
    have hrq : r ≠ q := by
      rintro rfl
      exact hqr List.prefix_rfl
    rw [entryAt_insert,if_neg hrq,if_neg fun hmade => hlost (hM.mem_lost_insert_iff.2 hmade)]

end Insert

/-- What was added can be removed, and then everything is where it was. -/
theorem Tidy.remove_of_add (hM : M.Tidy) (h : M.add p x = .ok M') :
    ∃ M'', M'.remove p = .ok (x,M'') ∧ ∀ r, M''.entryAt r = M.entryAt r := by
  obtain ⟨hup,hne,hfree,hc,rfl⟩ := exists_insert_of_add h
  refine ⟨(M.insert _ x hne hfree hc).erase _,?_,hM.entryAt_erase_insert⟩
  have hentry := entryAt_insert M x hne hfree hc p.fromRoot.segments
  rw [if_pos rfl] at hentry
  simp only [Catalog.remove,if_neg hup,if_neg hne,hentry]

end Catalog

namespace Tree

variable {α : Type} {t t' u : Tree α} {M M' : Catalog α} {p : Path} {x : Payload α} {id : NodeId}

theorem Shows.congr (h : t.Shows M) (he : ∀ q, M.entryAt q = M'.entryAt q) : t.Shows M' :=
  ⟨h.linked,fun q hq => (h.entry q hq).trans (he q)⟩

theorem Shows.exists_of_add (h : t.Shows M) (hp : p.Parsed) (hadd : t.add p x = .ok (id,t')) :
    ∃ M', M.add p x = .ok M' ∧ t'.Shows M' := by
  have hshows := h.add hp x
  cases hM : M.add p x with
  | error e =>
    rw [hM] at hshows
    cases hshows.symm.trans hadd
  | ok M' =>
    rw [hM] at hshows
    obtain ⟨_,_,hok,hs,-⟩ := hshows
    obtain ⟨-,rfl⟩ := Prod.mk.inj (Except.ok.inj (hok.symm.trans hadd))
    exact ⟨M',rfl,hs⟩

theorem Shows.sameShape (h : t.Shows M) (h' : u.Shows M) : t.SameShape u := by
  refine h.linked.sameShape h'.linked fun q => ?_
  by_cases hq : q = []
  · rw [hq,h.linked.entryAt_nil,h'.linked.entryAt_nil]
  · rw [h.entry q hq,h'.entry q hq]

/-- After every history of calls, what is added to the tree can be removed again. The payload comes
back, and the tree has the shape that it had before: the same is found at every path, with the same
children and as implicit as it was, and there are as many nodes. No later calls tell the two apart
either. -/
theorem remove_undoes_add (history : List (Change α)) (hh : ∀ c ∈ history, c.path.Parsed)
    (p : Path) (hp : p.Parsed) (x : Payload α) :
    let t := history.foldl Change.onTree empty
    ∀ id t', t.add p x = .ok (id,t') → ∃ t'', t'.remove p = .ok (x,t'') ∧ t''.SameShape t ∧
      ∀ later : List (Change α), (∀ c ∈ later, c.path.Parsed) →
        (later.foldl Change.onTree t'').SameShape (later.foldl Change.onTree t) := by
  intro t id t' hadd
  have h : t.Shows (history.foldl Change.onCatalog Catalog.empty) :=
    Change.shows_foldl history shows_empty hh
  have hM := Change.tidy_foldl history Catalog.tidy_empty hh
  obtain ⟨M',hM',hs⟩ := h.exists_of_add hp hadd
  obtain ⟨M'',hremove,hback⟩ := hM.remove_of_add hM'
  have hshows := hs.remove hp
  rw [hremove] at hshows
  obtain ⟨t'',hok,hs''⟩ := hshows
  have hs'' := hs''.congr hback
  exact ⟨t'',hok,hs''.sameShape h,fun later hl =>
    (Change.shows_foldl later hs'' hl).sameShape (Change.shows_foldl later h hl)⟩

def settlement : List (Change Nat) :=
  [.add ⟨true,["tool","a"]⟩ (.command 0),.add ⟨true,["box"]⟩ .group]

/-- Two groups are made below `/tool` and go again. `/tool` is implicit too and stays. -/
theorem remove_undoes_add_outpost :
    let p : Path := ⟨true,["tool","deep","er","b"]⟩
    let t := settlement.foldl Change.onTree empty
    (∀ c ∈ settlement, c.path.Parsed) ∧ p.Parsed ∧ ∃ id t' t'',
      t.add p (.command 1) = .ok (id,t') ∧ t'.remove p = .ok (.command 1,t'') ∧
      t'.size = t.size + 3 ∧ t''.SameShape t := by
  intro p t
  have hh : ∀ c ∈ settlement, c.path.Parsed := by
    intro c hc
    simp only [settlement,List.mem_cons,List.not_mem_nil,or_false] at hc
    rcases hc with rfl | rfl
    · exact ⟨"/tool/a",by decide +kernel⟩
    · exact ⟨"/box",by decide +kernel⟩
  have hp : p.Parsed := ⟨"/tool/deep/er/b",by decide +kernel⟩
  have hsize : (t.add p (.command 1)).toOption.map (·.2.size) = some (t.size + 3) := by
    decide +kernel
  cases hadd : t.add p (.command 1) with
  | error e => rw [hadd] at hsize; cases hsize
  | ok r =>
    obtain ⟨id,t'⟩ := r
    obtain ⟨t'',hremove,hshape,-⟩ := remove_undoes_add settlement hh p hp (.command 1) id t' hadd
    rw [hadd] at hsize
    exact ⟨hh,hp,id,t',t'',rfl,hremove,Option.some.inj hsize,hshape⟩

end Tree
end CommandShell
