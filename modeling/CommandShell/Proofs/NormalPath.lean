import CommandShell.Path
import CommandShell.Proofs.Separated

/-! Normal forms of paths.
A normalised path is a block of `..` followed by regular segments, so a path read from the root
either leaves it or consists of names that stand for children. -/
namespace CommandShell
namespace Path

/-- The segments that stand for a child of a group. -/
def IsName (name : String) : Prop := name ≠ "/" ∧ name ≠ "." ∧ name ≠ ".."

/-- The paths that texts are read as. -/
def Parsed (p : Path) : Prop := ∃ text, parse text = .ok p

theorem slash_notMem_of_parsed {p : Path} (hp : p.Parsed) : "/" ∉ p.segments := by
  obtain ⟨text,ht⟩ := hp
  unfold parse at ht
  split_ifs at ht
  obtain rfl := Except.ok.inj ht
  intro hm
  obtain ⟨cs,hcs,he⟩ := List.mem_map.1 hm
  have hslash : '/' ∈ cs := by
    have hl := congrArg String.toList he
    simp only [String.toList_ofList] at hl
    simp [hl]
  exact Separated.notMem_of_mem_splitOn (List.mem_filter.1 hcs).1 hslash

theorem mem_climb {out : List String} {name other : String} (h : other ∈ climb out name) :
    other ∈ out ∨ other = name := by
  unfold climb at h
  split at h <;> try split_ifs at h
  all_goals simp_all
  all_goals tauto

theorem mem_foldl_climb {segments out : List String} {other : String}
    (h : other ∈ segments.foldl climb out) : other ∈ out ∨ other ∈ segments := by
  induction segments generalizing out with
  | nil => exact .inl h
  | cons name segments ih =>
    rcases ih h with h | h
    · rcases mem_climb h with h | rfl <;> simp_all
    · simp [h]

theorem isName_of_mem_fromRoot {p : Path} (hp : p.Parsed)
    (h : p.fromRoot.segments.head? ≠ some "..") : ∀ name ∈ p.fromRoot.segments, IsName name := by
  intro name hm
  have hs : Settled (p.segments.foldl climb []) := settled_foldl_climb _ ⟨[],0,by simp⟩
  obtain ⟨names,k,he,hn⟩ := hs
  have hk : k = 0 := by
    cases k with
    | zero => rfl
    | succ k =>
      refine absurd ?_ h
      rw [segments_fromRoot,he,List.reverse_append,List.reverse_replicate,List.replicate_succ]
      rfl
  subst hk
  rw [segments_fromRoot,List.mem_reverse] at hm
  have hslash : name ≠ "/" := by
    rintro rfl
    rcases mem_foldl_climb hm with h | h
    · cases h
    · exact slash_notMem_of_parsed hp h
  rw [he] at hm
  simp only [List.replicate_zero,List.append_nil] at hm
  exact ⟨hslash,hn name hm⟩

theorem fromRoot_of_isName {q : List String} (h : ∀ name ∈ q, IsName name) :
    (⟨true,q⟩ : Path).fromRoot = ⟨true,q⟩ := by
  refine Path.ext (by simp) ?_
  rw [segments_fromRoot,foldl_climb_regular [] fun name hm => (h name hm).2]
  simp

end Path
end CommandShell
