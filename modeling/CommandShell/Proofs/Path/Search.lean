import CommandShell.Proofs.Path.Encoding

/-! The search path as it is stored.
The places are kept as one text with colons between them, which is cut apart at every colon. So a
list of places is kept exactly if no name in it has a colon, although names may have one. -/
namespace CommandShell
namespace Path

variable {p q : Path} {c : Char}

/-- The names are those that commands may have, `.` and `..`. -/
def Searchable (p : Path) : Prop :=
  ∀ name ∈ p.segments, name = "." ∨ name = ".." ∨ Segment.isValid name = true

instance (p : Path) : Decidable p.Searchable :=
  inferInstanceAs (Decidable (∀ name ∈ p.segments, _ ∨ _ ∨ _))

theorem Searchable.plain (h : p.Searchable) : ∀ name ∈ p.segments, Plain name := by
  intro name hm
  rcases h name hm with rfl | rfl | hv
  · exact ⟨by decide,by decide⟩
  · exact ⟨by decide,by decide⟩
  · exact (Segment.plain_of_isValid hv).1

/-- What is read where the place was written. -/
def stored (p : Path) : List Path :=
  (p.text.toList.splitOn ':').filterMap fun piece => (parse (String.ofList piece)).toOption

theorem mem_text_iff (hs : '/' ≠ c) (hd : '.' ≠ c) :
    c ∈ p.text.toList ↔ ∃ name ∈ p.segments, c ∈ name.toList := by
  obtain ⟨absolute,names⟩ := p
  by_cases hne : names = []
  · subst hne
    cases absolute <;> simp [text,hs.symm,hd.symm]
  have hnames : c ∈ ['/'].intercalate (names.map String.toList) ↔
      ∃ name ∈ names, c ∈ name.toList := by
    simp [Separated.mem_intercalate_iff hs]
  cases absolute with
  | true => rw [toList_text hne,List.mem_cons,or_iff_right hs.symm,hnames]
  | false =>
    obtain ⟨name,names,rfl⟩ := List.exists_cons_of_ne_nil hne
    have hl : (⟨false,name :: names⟩ : Path).text.toList =
        ['/'].intercalate ((name :: names).map String.toList) := String.toList_intercalate
    rw [hl,hnames]

theorem colon_notMem_of_parse {piece : List Char} (h : parse (String.ofList piece) = .ok p)
    (hc : ':' ∉ piece) : ':' ∉ p.text.toList := by
  rw [mem_text_iff (by decide) (by decide)]
  rintro ⟨name,hm,hn⟩
  unfold parse at h
  split_ifs at h
  obtain rfl := Except.ok.inj h
  obtain ⟨cs,hcs,rfl⟩ := List.mem_map.1 hm
  rw [String.toList_ofList] at hn
  refine hc ?_
  simpa using Separated.mem_of_mem_splitOn (List.mem_filter.1 hcs).1 hn

theorem colon_notMem_of_mem_stored (h : q ∈ p.stored) : ':' ∉ q.text.toList := by
  obtain ⟨piece,hpiece,hq⟩ := List.mem_filterMap.1 h
  cases hr : parse (String.ofList piece) with
  | error e =>
    rw [hr] at hq
    cases hq
  | ok q' =>
    rw [hr] at hq
    obtain rfl : q' = q := Option.some.inj hq
    exact colon_notMem_of_parse hr (Separated.notMem_of_mem_splitOn hpiece)

theorem stored_of_colon_notMem (hp : ∀ name ∈ p.segments, Plain name)
    (hc : ':' ∉ p.text.toList) : ∃ q, p.stored = [q] ∧ q.text = p.text := by
  obtain ⟨q,hq,ht,-⟩ := exists_parse_text hp
  refine ⟨q,?_,ht⟩
  rw [stored,List.splitOn_eq_singleton hc,List.filterMap_cons,String.ofList_toList,hq]
  rfl

end Path

namespace Environment

variable {entries : List Path}

/-- Each place is read on its own, whatever stands beside it. -/
theorem searchPath_setSearchPath (e : Environment) (entries : List Path) :
    (e.setSearchPath entries).searchPath = entries.flatMap Path.stored := by
  have hvalue : (e.setSearchPath entries).searchPath =
      ((":".intercalate (entries.map Path.text)).toList.splitOn ':').filterMap
        fun piece => (Path.parse (String.ofList piece)).toOption := by
    simp [searchPath,setSearchPath,get?_set]
  rw [hvalue]
  by_cases hne : entries = []
  · subst hne
    decide +kernel
  · have hsplit : (":".intercalate (entries.map Path.text)).toList.splitOn ':' =
        ((entries.map Path.text).map String.toList).flatMap (List.splitOn ':') := by
      rw [String.toList_intercalate]
      exact Separated.splitOn_intercalate ':' (by simpa using hne)
    rw [hsplit,List.map_map,List.flatMap_map,List.filterMap_flatMap]
    rfl

theorem map_text_stored (hp : ∀ p ∈ entries, ∀ name ∈ p.segments, Path.Plain name)
    (hc : ∀ p ∈ entries, ':' ∉ p.text.toList) :
    (entries.flatMap Path.stored).map Path.text = entries.map Path.text := by
  induction entries with
  | nil => rfl
  | cons p entries ih =>
    obtain ⟨q,hq,ht⟩ := Path.stored_of_colon_notMem (hp p (by simp)) (hc p (by simp))
    rw [List.flatMap_cons,List.map_append,hq,List.map_cons,
      ih (fun p' h => hp p' (by simp [h])) fun p' h => hc p' (by simp [h])]
    simp [ht]

/-- Whatever the search path was before, the places that are read are those that each text gives
when it is cut at its colons. They are written like those that were stored, in the same number and
order, exactly if no name among these has a colon. -/
theorem search_path_kept_iff (e : Environment) (entries : List Path)
    (h : ∀ p ∈ entries, p.Searchable) :
    (e.setSearchPath entries).searchPath = entries.flatMap Path.stored ∧
    ((e.setSearchPath entries).searchPath.map Path.text = entries.map Path.text ↔
      ∀ p ∈ entries, ∀ name ∈ p.segments, ':' ∉ name.toList) := by
  have hread := searchPath_setSearchPath e entries
  have hcolon : ∀ p : Path, ':' ∉ p.text.toList ↔ ∀ name ∈ p.segments, ':' ∉ name.toList := by
    intro p
    simp [Path.mem_text_iff (p := p) (c := ':') (by decide) (by decide)]
  refine ⟨hread,?_⟩
  rw [hread]
  constructor
  · intro hkept p hp
    rw [← hcolon]
    have hmem : p.text ∈ (entries.flatMap Path.stored).map Path.text := by
      rw [hkept]
      exact List.mem_map_of_mem hp
    obtain ⟨q,hq,ht⟩ := List.mem_map.1 hmem
    obtain ⟨p',-,hstored⟩ := List.mem_flatMap.1 hq
    rw [← ht]
    exact Path.colon_notMem_of_mem_stored hstored
  · exact fun hc => map_text_stored (fun p hp => (h p hp).plain) fun p hp =>
      (hcolon p).2 (hc p hp)

def places : List Path := [.here,⟨true,["tool","sub"]⟩,⟨false,["..","a.b"]⟩]

theorem search_path_kept_iff_places :
    (∀ p ∈ places, p.Searchable) ∧ (∀ p ∈ places, ∀ name ∈ p.segments, ':' ∉ name.toList) ∧
      (((empty.set searchName "/old:/gone").setSearchPath places).searchPath).map Path.text =
        [".","/tool/sub","../a.b"] := by
  have hh : ∀ p ∈ places, p.Searchable := by decide +kernel
  have hc : ∀ p ∈ places, ∀ name ∈ p.segments, ':' ∉ name.toList := by decide +kernel
  have htexts : places.map Path.text = [".","/tool/sub","../a.b"] := by decide +kernel
  exact ⟨hh,hc,((search_path_kept_iff (empty.set searchName "/old:/gone") places hh).2.2 hc).trans
    htexts⟩

/-- A command may be registered in the group `/a:b`, but as a place this is read as two others. -/
theorem search_path_not_kept :
    Registry.isValidName ⟨true,["a:b","c"]⟩ = true ∧
    (empty.setSearchPath [⟨true,["a:b"]⟩]).searchPath.map Path.text = ["/a","b"] ∧
    ¬∀ (e : Environment) (entries : List Path), (∀ p ∈ entries, p.Searchable) →
      (e.setSearchPath entries).searchPath.map Path.text = entries.map Path.text := by
  have hread : (empty.setSearchPath [⟨true,["a:b"]⟩]).searchPath.map Path.text = ["/a","b"] := by
    decide +kernel
  refine ⟨by decide +kernel,hread,fun hall => ?_⟩
  have hsearchable : ∀ p ∈ [(⟨true,["a:b"]⟩ : Path)], p.Searchable := by decide +kernel
  have hkept := hall empty [⟨true,["a:b"]⟩] hsearchable
  rw [hread] at hkept
  exact absurd hkept (by decide +kernel)

end Environment
end CommandShell
