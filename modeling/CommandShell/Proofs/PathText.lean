import Mathlib.Data.List.Infix
import CommandShell.Proofs.NormalPath

/-! Texts of absolute paths.
A path of non-empty segments without slashes is read back from its text, so the text tells it from
all others. -/
namespace CommandShell
namespace Path

def Plain (name : String) : Prop := name ≠ "" ∧ '/' ∉ name.toList

theorem text_cons (name : String) (q : List String) :
    (⟨true,name :: q⟩ : Path).text = "/" ++ "/".intercalate (name :: q) := rfl

theorem toList_text {q : List String} (hne : q ≠ []) :
    (⟨true,q⟩ : Path).text.toList = '/' :: ['/'].intercalate (q.map String.toList) := by
  obtain ⟨name,q,rfl⟩ := List.exists_cons_of_ne_nil hne
  rw [text_cons,String.toList_append,String.toList_intercalate]
  rfl

theorem splitOn_intercalate {q : List String} (hne : q ≠ []) (hq : ∀ name ∈ q, Plain name) :
    (['/'].intercalate (q.map String.toList)).splitOn '/' = q.map String.toList := by
  refine List.splitOn_intercalate '/' ?_ (by simpa using hne)
  intro l hl
  obtain ⟨name,hm,rfl⟩ := List.mem_map.1 hl
  exact (hq name hm).2

theorem map_filter_toList {q : List String} (hq : ∀ name ∈ q, Plain name) :
    ((q.map String.toList).filter (· ≠ [])).map String.ofList = q := by
  have hfilter : (q.map String.toList).filter (· ≠ []) = q.map String.toList := by
    rw [List.filter_eq_self]
    intro l hl
    obtain ⟨name,hm,rfl⟩ := List.mem_map.1 hl
    simpa using (hq name hm).1
  rw [hfilter]
  simp [Function.comp_def]

/-- Reading back what was written gives the same path. -/
theorem parse_text {q : List String} (hne : q ≠ []) (hq : ∀ name ∈ q, Plain name) :
    parse (⟨true,q⟩ : Path).text = .ok ⟨true,q⟩ := by
  have hl := toList_text hne
  have hslash : ('/' :: ['/'].intercalate (q.map String.toList)).splitOn '/' =
      [] :: q.map String.toList := by
    rw [List.splitOn_cons_eq_if_modifyHead,if_pos (by simp),splitOn_intercalate hne hq]
  rw [parse,if_neg (by simp [hl]),hl,hslash,List.filter_cons_of_neg (by simp),map_filter_toList hq]
  simp

theorem parse_text_of_plain {p : Path} (habs : p.absolute = true)
    (hp : ∀ name ∈ p.segments, Plain name) : parse p.text = .ok p := by
  obtain ⟨absolute,segments⟩ := p
  obtain rfl : absolute = true := habs
  by_cases hne : segments = []
  · subst hne
    decide
  · exact parse_text hne hp

theorem parse_text_relative {q : List String} (hne : q ≠ []) (hq : ∀ name ∈ q, Plain name) :
    parse (⟨false,q⟩ : Path).text = .ok ⟨false,q⟩ := by
  obtain ⟨name,q,rfl⟩ := List.exists_cons_of_ne_nil hne
  have hl : (⟨false,name :: q⟩ : Path).text.toList =
      ['/'].intercalate ((name :: q).map String.toList) := String.toList_intercalate
  have hname : Plain name := hq name (by simp)
  obtain ⟨c,cs,hc⟩ := List.exists_cons_of_ne_nil fun he => hname.1 (String.toList_eq_nil_iff.1 he)
  have hhead : (['/'].intercalate ((name :: q).map String.toList)).head? = some c := by
    cases q <;> simp [List.intercalate,hc]
  have hnil : ['/'].intercalate ((name :: q).map String.toList) ≠ [] := by
    intro he
    rw [he] at hhead
    cases hhead
  have hslash : c ≠ '/' := by
    rintro rfl
    exact hname.2 (by simp [hc])
  rw [parse,hl,if_neg hnil,hhead,splitOn_intercalate hne hq,map_filter_toList hq]
  simp [hslash]

theorem text_append {q r : List String} (hq : q ≠ []) (hr : r ≠ []) :
    (⟨true,q ++ r⟩ : Path).text = (⟨true,q⟩ : Path).text ++ "/" ++ "/".intercalate r := by
  obtain ⟨name,q,rfl⟩ := List.exists_cons_of_ne_nil hq
  rw [List.cons_append,text_cons,text_cons,← List.cons_append,
    String.intercalate_append_of_ne_nil hq hr]
  simp [String.append_assoc]

theorem plain_of_parsed {p : Path} (hp : p.Parsed) : ∀ name ∈ p.segments, Plain name := by
  obtain ⟨text,ht⟩ := hp
  unfold parse at ht
  split_ifs at ht
  obtain rfl := Except.ok.inj ht
  intro name hm
  obtain ⟨cs,hcs,rfl⟩ := List.mem_map.1 hm
  obtain ⟨hsplit,hne⟩ := List.mem_filter.1 hcs
  refine ⟨fun he => ?_,?_⟩
  · have hnil : cs = [] := by simpa using congrArg String.toList he
    simp [hnil] at hne
  · rw [String.toList_ofList]
    exact Separated.notMem_of_mem_splitOn hsplit

theorem plain_fromRoot {p : Path} (hp : p.Parsed) : ∀ name ∈ p.fromRoot.segments, Plain name := by
  intro name hm
  rw [segments_fromRoot,List.mem_reverse] at hm
  rcases mem_foldl_climb hm with hm | hm
  · cases hm
  · exact plain_of_parsed hp name hm

theorem Parsed.fromRoot {p : Path} (hp : p.Parsed) : p.fromRoot.Parsed :=
  ⟨_,parse_text_of_plain p.absolute_fromRoot (plain_fromRoot hp)⟩

end Path
end CommandShell
