import Mathlib.Data.List.Infix
import CommandShell.Proofs.SortedMap
import CommandShell.Tree

/-! A namespace as a finite map from the names on the way down to what stands there.
Groups above an entry are entries themselves. Adding and removing are stated on the whole map,
without slots and links. -/
namespace CommandShell

structure Entry (α : Type) where
  payload : Payload α
  /-- The group was made on the way to a deeper entry. -/
  implicit : Bool

theorem length_lt_of_isPrefix {q r : List String} (h : r <+: q) (hne : r ≠ q) :
    r.length < q.length :=
  lt_of_le_of_ne h.length_le fun he => hne (h.eq_of_length he)

theorem concat_prefix_of_length_lt {q r s : List String} {name : String} (hq : q ++ [name] <+: s)
    (hr : r <+: s) (h : q.length < r.length) : q ++ [name] <+: r :=
  List.prefix_of_prefix_length_le hq hr (by simpa using Nat.succ_le_of_lt h)

theorem concat_not_isPrefix (q : List String) (name : String) : ¬q ++ [name] <+: q :=
  fun h => absurd h.length_le (by simp)

def above (q : List String) : List (List String) :=
  (List.range (q.length - 1)).map fun n => q.take (n + 1)

theorem mem_above_iff {q r : List String} : r ∈ above q ↔ r ≠ [] ∧ r <+: q ∧ r ≠ q := by
  simp only [above,List.mem_map,List.mem_range]
  constructor
  · rintro ⟨n,hn,rfl⟩
    have hl : (q.take (n + 1)).length = n + 1 := by simp; omega
    refine ⟨fun h => by simp [h] at hl,List.take_prefix _ _,fun h => ?_⟩
    rw [h] at hl
    omega
  · rintro ⟨hne,hp,hq⟩
    have hpos := List.length_pos_iff.2 hne
    have hlt := length_lt_of_isPrefix hp hq
    refine ⟨r.length - 1,by omega,?_⟩
    rw [Nat.sub_add_cancel hpos]
    exact (List.prefix_iff_eq_take.1 hp).symm

theorem above_trans {q r s : List String} (hr : r ∈ above q) (hs : s ∈ above r) :
    s ∈ above q := by
  obtain ⟨-,hrq,-⟩ := mem_above_iff.1 hr
  obtain ⟨hs,hsr,hne⟩ := mem_above_iff.1 hs
  refine mem_above_iff.2 ⟨hs,hsr.trans hrq,?_⟩
  rintro rfl
  exact hne (hsr.eq_of_length_le hrq.length_le)

/-- A finite map from paths below the root. Whatever lies above an entry is a group. -/
structure Catalog (α : Type) where
  entries : Std.TreeMap (List String) (Entry α)
  ne_nil : ∀ q ∈ entries, q ≠ []
  grouped : ∀ q ∈ entries, ∀ r ∈ above q, ∃ e, entries[r]? = some e ∧ e.payload = .group

namespace Catalog

variable {α : Type}

def empty : Catalog α := ⟨∅,by simp,by simp⟩

def entryAt (M : Catalog α) (q : List String) : Option (Entry α) := M.entries[q]?

theorem mem_iff {M : Catalog α} {q : List String} : q ∈ M.entries ↔ ∃ e, M.entryAt q = some e := by
  rw [Std.TreeMap.mem_iff_isSome_getElem?,Option.isSome_iff_exists]
  rfl

@[simp] theorem entryAt_empty (q : List String) : (empty : Catalog α).entryAt q = none := by
  simp [entryAt,empty]

@[simp] theorem entryAt_nil (M : Catalog α) : M.entryAt [] = none := by
  by_contra h
  obtain ⟨e,he⟩ := Option.ne_none_iff_exists'.1 h
  exact M.ne_nil [] (mem_iff.2 ⟨e,he⟩) rfl

theorem group_of_above {M : Catalog α} {q r : List String} {e : Entry α}
    (h : M.entryAt q = some e) (hr : r ∈ above q) :
    ∃ e, M.entryAt r = some e ∧ e.payload = .group :=
  M.grouped q (mem_iff.2 ⟨e,h⟩) r hr

def isCommand (M : Catalog α) (q : List String) : Bool :=
  (M.entryAt q).any fun e => !e.payload.isGroup

def fill (m : Std.TreeMap (List String) (Entry α)) (groups : List (List String)) :
    Std.TreeMap (List String) (Entry α) :=
  groups.foldl (fun m r => m.insertIfNew r ⟨.group,true⟩) m

theorem getElem?_fill (m : Std.TreeMap (List String) (Entry α)) (groups : List (List String))
    (r : List String) :
    (fill m groups)[r]? = if r ∈ groups ∧ m[r]? = none then some ⟨.group,true⟩ else m[r]? := by
  induction groups generalizing m with
  | nil => simp [fill]
  | cons g groups ih =>
    have hi : fill m (g :: groups) = fill (m.insertIfNew g ⟨.group,true⟩) groups := rfl
    rw [hi,ih,Std.TreeMap.getElem?_insertIfNew]
    simp only [Std.compare_eq_iff_eq,List.mem_cons]
    by_cases hg : g = r
    · subst hg
      cases h : m[g]? with
      | none => simp [Std.TreeMap.mem_iff_isSome_getElem?,h]
      | some e => simp [Std.TreeMap.mem_iff_isSome_getElem?,h]
    · simp [hg,Ne.symm hg]

/-- The map with `x` at `q` and with implicit groups above it where there was nothing. -/
def inserted (M : Catalog α) (q : List String) (x : Payload α) :
    Std.TreeMap (List String) (Entry α) :=
  (fill M.entries (above q)).insert q ⟨x,false⟩

theorem getElem?_inserted (M : Catalog α) (q r : List String) (x : Payload α) :
    (M.inserted q x)[r]? = if r = q then some ⟨x,false⟩
      else if r ∈ above q ∧ M.entryAt r = none then some ⟨.group,true⟩ else M.entryAt r := by
  rw [inserted,SortedMap.getElem?_insert,getElem?_fill]
  by_cases h : q = r
  · simp [h]
  · simp [h,Ne.symm h,entryAt]

theorem notMem_above_of_mem {M : Catalog α} {q r : List String} {e : Entry α}
    (hq : M.entryAt q = none) (hr : M.entryAt r = some e) : q ∉ above r := by
  intro h
  obtain ⟨_,he,-⟩ := group_of_above hr h
  rw [hq] at he
  cases he

def insert (M : Catalog α) (q : List String) (x : Payload α) (hne : q ≠ [])
    (hq : M.entryAt q = none) (hc : ∀ r ∈ above q, M.isCommand r = false) : Catalog α where
  entries := M.inserted q x
  ne_nil r hr := by
    rintro rfl
    rw [Std.TreeMap.mem_iff_isSome_getElem?,getElem?_inserted,if_neg hne.symm,
      if_neg fun h => (mem_above_iff.1 h.1).1 rfl] at hr
    simp at hr
  grouped r hr s hs := by
    have hsq : s ≠ q := by
      rintro rfl
      rw [Std.TreeMap.mem_iff_isSome_getElem?,getElem?_inserted] at hr
      split_ifs at hr with h1 h2
      · exact (mem_above_iff.1 hs).2.2 h1.symm
      · exact (mem_above_iff.1 (above_trans h2.1 hs)).2.2 rfl
      · obtain ⟨e,he⟩ := Option.isSome_iff_exists.1 hr
        exact notMem_above_of_mem hq he hs
    have hgroup : s ∈ above q → ∃ e, (M.inserted q x)[s]? = some e ∧ e.payload = .group := by
      intro h
      rw [getElem?_inserted,if_neg hsq]
      cases he : M.entryAt s with
      | none => exact ⟨_,if_pos ⟨h,rfl⟩,rfl⟩
      | some e =>
        have hn := hc s h
        cases hp : e.payload <;> simp_all [isCommand,Payload.isGroup]
    rw [Std.TreeMap.mem_iff_isSome_getElem?,getElem?_inserted] at hr
    split_ifs at hr with h1 h2
    · exact hgroup (h1 ▸ hs)
    · exact hgroup (above_trans h2.1 hs)
    · obtain ⟨e,he⟩ := Option.isSome_iff_exists.1 hr
      obtain ⟨e,he,hg⟩ := group_of_above he hs
      exact ⟨e,by simp [getElem?_inserted,hsq,he],hg⟩

theorem entryAt_insert (M : Catalog α) {q : List String} (x : Payload α) (hne : q ≠ [])
    (hq : M.entryAt q = none) (hc : ∀ r ∈ above q, M.isCommand r = false) (r : List String) :
    (M.insert q x hne hq hc).entryAt r = if r = q then some ⟨x,false⟩
      else if r ∈ above q ∧ M.entryAt r = none then some ⟨.group,true⟩ else M.entryAt r :=
  getElem?_inserted M q r x

def children (M : Catalog α) (r : List String) : List (List String) :=
  M.entries.keys.filter fun k => k.dropLast = r

/-- `r` is an implicit group whose children all lie on the way to `q`. -/
def spent (M : Catalog α) (q r : List String) : Bool :=
  (M.entryAt r).any (·.implicit) && (M.children r).all (· <+: q)

theorem spent_iff {M : Catalog α} {q r : List String} :
    M.spent q r = true ↔ (∃ e, M.entryAt r = some e ∧ e.implicit = true) ∧
      ∀ k e, M.entryAt k = some e → k.dropLast = r → k <+: q := by
  simp only [spent,children,Bool.and_eq_true,Option.any_eq_true,List.all_eq_true,List.mem_filter,
    Std.TreeMap.mem_keys,mem_iff,decide_eq_true_eq]
  constructor
  · rintro ⟨he,hk⟩
    exact ⟨he,fun k e h hd => hk k ⟨⟨e,h⟩,hd⟩⟩
  · rintro ⟨he,hk⟩
    exact ⟨he,fun k ⟨⟨e,h⟩,hd⟩ => hk k e h hd⟩

/-- The groups above `q` that go with it: those that are left without children, up to the first
one that is not implicit or has another child. -/
def lost (M : Catalog α) (q : List String) : List (List String) :=
  (above q).filter fun r => (above q).all fun s => !(r.isPrefixOf s) || M.spent q s

theorem mem_lost_iff {M : Catalog α} {q r : List String} :
    r ∈ M.lost q ↔ r ∈ above q ∧ ∀ s ∈ above q, r <+: s → M.spent q s = true := by
  simp only [lost,List.mem_filter,List.all_eq_true,Bool.or_eq_true,Bool.not_eq_true',
    ← Bool.not_eq_true,List.isPrefixOf_iff_prefix,← imp_iff_not_or]

theorem lost_of_below {M : Catalog α} {q r s : List String} {e : Entry α} (hr : r ∈ M.lost q)
    (h : M.entryAt (r ++ s) = some e) : q <+: r ++ s ∨ r ++ s ∈ M.lost q := by
  induction s generalizing r with
  | nil => exact .inr (by simpa using hr)
  | cons name s ih =>
    obtain ⟨hra,hs⟩ := mem_lost_iff.1 hr
    have hk : M.entryAt ((r ++ [name]) ++ s) = some e := by simpa using h
    -- the child of `r` on the way is an entry, hence lies on the way to `q`
    have hchild : ∃ e, M.entryAt (r ++ [name]) = some e := by
      by_cases hs : s = []
      · exact ⟨e,by simpa [hs] using hk⟩
      · have ha : r ++ [name] ∈ above (r ++ [name] ++ s) :=
          mem_above_iff.2 ⟨by simp,by simp,by simpa using hs⟩
        obtain ⟨e,he,-⟩ := group_of_above hk ha
        exact ⟨e,he⟩
    obtain ⟨e',he⟩ := hchild
    have hpre := (spent_iff.1 (hs r hra List.prefix_rfl)).2 _ e' he (by simp)
    by_cases hq : r ++ [name] = q
    · exact .inl (by simp [← hq])
    · have hlost : r ++ [name] ∈ M.lost q :=
        mem_lost_iff.2 ⟨mem_above_iff.2 ⟨by simp,hpre,hq⟩,fun t ht hp =>
          hs t ht ((List.prefix_append r [name]).trans hp)⟩
      simpa using ih hlost hk

/-- What is left when `q`, everything below it and the groups that go with it are taken away. -/
def erased (M : Catalog α) (q : List String) : Std.TreeMap (List String) (Entry α) :=
  M.entries.filter fun r _ => !(q.isPrefixOf r) && !(M.lost q).contains r

theorem getElem?_erased (M : Catalog α) (q r : List String) :
    (M.erased q)[r]? = if q <+: r ∨ r ∈ M.lost q then none else M.entryAt r := by
  rw [erased,Std.TreeMap.getElem?_filter']
  change (M.entryAt r).filter _ = _
  by_cases hq : q <+: r
  · have hp : q.isPrefixOf r = true := List.isPrefixOf_iff_prefix.2 hq
    cases M.entryAt r <;> simp [hq,hp,Option.filter]
  by_cases hl : r ∈ M.lost q
  · cases M.entryAt r <;> simp [hl,Option.filter]
  · cases M.entryAt r <;> simp [hq,hl,Option.filter]

/-- Takes `q` away with everything below it and the groups that go with it. -/
def erase (M : Catalog α) (q : List String) : Catalog α where
  entries := M.erased q
  ne_nil r hr := M.ne_nil r (Std.TreeMap.mem_of_mem_filter hr)
  grouped r hr s hs := by
    rw [Std.TreeMap.mem_iff_isSome_getElem?,getElem?_erased] at hr
    split_ifs at hr with h
    · simp at hr
    · obtain ⟨e,he⟩ := Option.isSome_iff_exists.1 hr
      obtain ⟨-,⟨u,rfl⟩,-⟩ := mem_above_iff.1 hs
      have hkeep : ¬(q <+: s ∨ s ∈ M.lost q) := by
        rintro (hq | hl)
        · exact h (.inl (hq.trans (List.prefix_append s u)))
        · exact h (lost_of_below hl he)
      rw [getElem?_erased,if_neg hkeep]
      exact group_of_above he hs

theorem entryAt_erase (M : Catalog α) (q r : List String) :
    (M.erase q).entryAt r = if q <+: r ∨ r ∈ M.lost q then none else M.entryAt r :=
  getElem?_erased M q r

def add (M : Catalog α) (p : Path) (x : Payload α) : Except TreeError (Catalog α) :=
  let q := p.fromRoot.segments
  if q.head? = some ".." then .error (.outsideRoot p.fromRoot.text)
  else if hne : q = [] then .error (.emptyPath p.fromRoot.text)
  else match hc : (above q).find? M.isCommand with
    | some c => .error (.notAGroup (Path.mk true c).text)
    | none =>
      if hq : M.entryAt q = none then
        .ok (M.insert q x hne hq fun r hr => by simpa using List.find?_eq_none.1 hc r hr)
      else .error (.duplicatePath p.fromRoot.text)

section Add

variable {M : Catalog α} {p : Path} {x : Payload α}

theorem add_outside (h : p.fromRoot.segments.head? = some "..") :
    M.add p x = .error (.outsideRoot p.fromRoot.text) := if_pos h

variable (h : p.fromRoot.segments.head? ≠ some "..")
include h

theorem add_root (hq : p.fromRoot.segments = []) :
    M.add p x = .error (.emptyPath p.fromRoot.text) := by
  simp only [add]
  rw [if_neg h,dif_pos hq]

theorem add_below_command {c : List String} (hne : p.fromRoot.segments ≠ [])
    (hc : (above p.fromRoot.segments).find? M.isCommand = some c) :
    M.add p x = .error (.notAGroup (Path.mk true c).text) := by
  simp only [add]
  rw [if_neg h,dif_neg hne]
  split
  · rename_i d hd
    rw [hc] at hd
    rw [Option.some.inj hd]
  · rename_i hnone
    rw [hc] at hnone
    cases hnone

theorem add_taken (hne : p.fromRoot.segments ≠ [])
    (hc : (above p.fromRoot.segments).find? M.isCommand = none)
    (hq : M.entryAt p.fromRoot.segments ≠ none) :
    M.add p x = .error (.duplicatePath p.fromRoot.text) := by
  simp only [add]
  rw [if_neg h,dif_neg hne]
  split
  · rename_i d hd
    rw [hc] at hd
    cases hd
  · rw [dif_neg hq]

theorem add_free (hne : p.fromRoot.segments ≠ [])
    (hc : ∀ r ∈ above p.fromRoot.segments, M.isCommand r = false)
    (hq : M.entryAt p.fromRoot.segments = none) :
    M.add p x = .ok (M.insert p.fromRoot.segments x hne hq hc) := by
  simp only [add]
  rw [if_neg h,dif_neg hne]
  split
  · rename_i d hd
    have hfalse := hc d (List.mem_of_find?_eq_some hd)
    rw [List.find?_some hd] at hfalse
    cases hfalse
  · rw [dif_pos hq]

end Add

theorem exists_insert_of_add {M M' : Catalog α} {p : Path} {x : Payload α}
    (h : M.add p x = .ok M') : p.fromRoot.segments.head? ≠ some ".." ∧
      ∃ hne hfree hc, M' = M.insert p.fromRoot.segments x hne hfree hc := by
  by_cases hup : p.fromRoot.segments.head? = some ".."
  · cases (add_outside hup).symm.trans h
  by_cases hne : p.fromRoot.segments = []
  · cases (add_root hup hne).symm.trans h
  cases hc : (above p.fromRoot.segments).find? M.isCommand with
  | some c => cases (add_below_command hup hne hc).symm.trans h
  | none =>
    by_cases hfree : M.entryAt p.fromRoot.segments = none
    · have hgroups r (hr : r ∈ above p.fromRoot.segments) : M.isCommand r = false := by
        simpa using List.find?_eq_none.1 hc r hr
      exact ⟨hup,hne,hfree,hgroups,
        (Except.ok.inj ((add_free hup hne hgroups hfree).symm.trans h)).symm⟩
    · cases (add_taken hup hne hc hfree).symm.trans h

theorem exists_error_iff {M : Catalog α} {p : Path} {x : Payload α} :
    (∃ err, M.add p x = .error err) ↔ p.fromRoot.segments.head? = some ".." ∨
      (p.fromRoot.segments = [] ∨ (M.entryAt p.fromRoot.segments).isSome) ∨
      ∃ q ∈ above p.fromRoot.segments, M.isCommand q = true := by
  constructor
  · rintro ⟨err,h⟩
    by_contra hno
    simp only [not_or,not_exists,not_and,Bool.not_eq_true,Option.isSome_eq_false_iff,
      Option.isNone_iff_eq_none] at hno
    obtain ⟨hup,⟨hne,hfree⟩,hgroups⟩ := hno
    cases (add_free hup hne hgroups hfree).symm.trans h
  · intro hbar
    cases h : M.add p x with
    | error err => exact ⟨err,rfl⟩
    | ok M' =>
      obtain ⟨hup,hne,hfree,hgroups,-⟩ := exists_insert_of_add h
      rcases hbar with hout | (hnil | hsome) | ⟨q,hq,hcommand⟩
      · exact absurd hout hup
      · exact absurd hnil hne
      · simp [hfree] at hsome
      · simp [hgroups q hq] at hcommand

def remove (M : Catalog α) (p : Path) : Except TreeError (Payload α × Catalog α) :=
  let q := p.fromRoot.segments
  if q.head? = some ".." then .error (.outsideRoot p.fromRoot.text)
  else if q = [] then .error .rootImmutable
  else match M.entryAt q with
    | none => .error (.notFound p.fromRoot.text)
    | some e => .ok (e.payload,M.erase q)

end Catalog
end CommandShell
