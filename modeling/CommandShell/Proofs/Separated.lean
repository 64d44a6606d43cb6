import Mathlib.Data.List.Basic

/-! Lists cut at a separator, and put together with one. -/
namespace CommandShell
namespace Separated

variable {α : Type*} {a x : α} {s l : List α} {pieces : List (List α)}

theorem mem_intercalate_iff (hne : a ≠ x) :
    x ∈ [a].intercalate pieces ↔ ∃ s ∈ pieces, x ∈ s := by
  induction pieces with
  | nil => simp [List.intercalate]
  | cons s pieces ih =>
    cases pieces with
    | nil => simp [List.intercalate]
    | cons s' pieces =>
      rw [List.intercalate_cons_cons,List.mem_append,List.mem_append,ih]
      simp [hne.symm]

section Split

variable [BEq α] [LawfulBEq α]

theorem notMem_of_mem_splitOn (h : s ∈ l.splitOn a) : a ∉ s := by
  induction l generalizing s with
  | nil => simp_all [List.splitOn_nil]
  | cons b l ih =>
    rw [List.splitOn_cons_eq_if_modifyHead] at h
    split_ifs at h with hb
    · rcases List.mem_cons.1 h with rfl | h
      · exact List.not_mem_nil
      · exact ih h
    · cases hs : l.splitOn a with
      | nil => exact absurd hs (List.splitOn_ne_nil a l)
      | cons t ts =>
        rw [hs,List.modifyHead_cons] at h
        rcases List.mem_cons.1 h with rfl | h
        · have ht : a ∉ t := ih (by simp [hs])
          have hne : ¬ a = b := fun he => hb (by simp [he])
          simp [ht,hne]
        · exact ih (by simp [hs,h])

theorem mem_of_mem_splitOn (hs : s ∈ l.splitOn a) (hx : x ∈ s) : x ∈ l := by
  have hne : a ≠ x := by
    rintro rfl
    exact notMem_of_mem_splitOn hs hx
  have hl : [a].intercalate (l.splitOn a) = l := List.intercalate_splitOn a
  rw [← hl,mem_intercalate_iff hne]
  exact ⟨s,hs,hx⟩

theorem splitOn_intercalate (a : α) (hne : pieces ≠ []) :
    ([a].intercalate pieces).splitOn a = pieces.flatMap (List.splitOn a) := by
  induction pieces with
  | nil => exact absurd rfl hne
  | cons s pieces ih =>
    cases pieces with
    | nil => simp [List.intercalate]
    | cons s' pieces =>
      rw [List.intercalate_cons_cons,List.append_assoc,List.singleton_append,
        List.splitOn_append_cons_self,ih (by simp)]
      rfl

end Split
end Separated
end CommandShell
