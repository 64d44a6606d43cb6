import Mathlib.Logic.Relation
import CommandShell.Proofs.SortedMap
import CommandShell.Tree

/-! What each change of the slots does to the nodes, and to the list of empty slots. -/
namespace CommandShell
namespace Tree

variable {α : Type} {t : Tree α} {id j : NodeId} {n : Node α}

theorem node?_eq_some_iff : t.node? id = some n ↔ t.slots[id]? = some (some n) := by
  simp [node?,Option.join_eq_some_iff]

theorem node?_of_slot_none (h : t.slots[id]? = some none) : t.node? id = none := by
  simp [node?,h]

/-- The free list holds exactly the empty slots, each once. -/
def FreeExact (t : Tree α) : Prop := t.free.Nodup ∧ ∀ id, id ∈ t.free ↔ t.slots[id]? = some none

theorem node?_of_mem_free (hf : t.FreeExact) (h : id ∈ t.free) : t.node? id = none :=
  node?_of_slot_none ((hf.2 id).1 h)

theorem node?_modifyNode (t : Tree α) (id j : NodeId) (f : Node α → Node α) :
    (t.modifyNode id f).node? j = if j = id then (t.node? j).map f else t.node? j := by
  by_cases h : j = id
  · subst h
    simp only [node?,modifyNode,Array.getElem?_modify,if_true]
    cases t.slots[j]? with
    | none => rfl
    | some o => cases o <;> rfl
  · simp [node?,modifyNode,Array.getElem?_modify,h,Ne.symm h]

theorem freeExact_modifyNode (hf : t.FreeExact) (id : NodeId) (f : Node α → Node α) :
    (t.modifyNode id f).FreeExact := by
  refine ⟨hf.1,fun j => (hf.2 j).trans ?_⟩
  by_cases h : id = j
  · simp only [modifyNode,Array.getElem?_modify,h,if_true]
    cases t.slots[j]? with
    | none => simp
    | some o => cases o <;> simp
  · simp [modifyNode,Array.getElem?_modify,h]

/-- Two nodes that differ in their children at most. -/
structure Alike (n m : Node α) : Prop where
  name : n.name = m.name
  parent : n.parent = m.parent
  payload : n.payload = m.payload
  implicit : n.implicit = m.implicit

theorem alike_children (n : Node α) (children : Std.TreeMap String NodeId) :
    Alike { n with children } n := ⟨rfl,rfl,rfl,rfl⟩

theorem node?_vacate (t : Tree α) (id j : NodeId) :
    (t.vacate id).node? j = if j = id then none else t.node? j := by
  by_cases h : j = id
  · subst h
    simp only [node?,vacate,Array.getElem?_setIfInBounds,if_true]
    split <;> rfl
  · simp [node?,vacate,h,Ne.symm h]

theorem freeExact_vacate (hf : t.FreeExact) (h : t.node? id = some n) :
    (t.vacate id).FreeExact := by
  have hs := node?_eq_some_iff.1 h
  have hlt : id < t.slots.size := (Array.getElem?_eq_some_iff.1 hs).1
  have hid : id ∉ t.free := by
    rw [hf.2 id,hs]
    simp
  refine ⟨List.nodup_cons.2 ⟨hid,hf.1⟩,fun j => ?_⟩
  by_cases hj : id = j
  · simp [vacate,← hj,hlt]
  · simp [vacate,hj,Ne.symm hj,hf.2 j]

theorem node?_place_fst (hf : t.FreeExact) (n : Node α) : t.node? (t.place n).1 = none := by
  cases h : t.free with
  | nil => simp [place,h,node?]
  | cons id free =>
    have hid : t.node? id = none := node?_of_mem_free hf (by simp [h])
    simp [place,h,hid]

theorem node?_place (hf : t.FreeExact) (n : Node α) (j : NodeId) :
    (t.place n).2.node? j = if j = (t.place n).1 then some n else t.node? j := by
  cases h : t.free with
  | nil =>
    simp only [place,h,node?,Array.getElem?_push]
    split_ifs <;> rfl
  | cons id free =>
    have hs := (hf.2 id).1 (by simp [h])
    have hlt : id < t.slots.size := (Array.getElem?_eq_some_iff.1 hs).1
    by_cases hj : j = id
    · simp [place,h,node?,hj,hlt]
    · simp [place,h,node?,hj,Ne.symm hj]

theorem freeExact_place (hf : t.FreeExact) (n : Node α) : (t.place n).2.FreeExact := by
  cases h : t.free with
  | nil =>
    refine ⟨by simp [place,h],fun j => ?_⟩
    have hj : t.slots[j]? ≠ some none := by
      rw [ne_eq,← hf.2 j,h]
      exact List.not_mem_nil
    simp only [place,h,Array.getElem?_push]
    split_ifs <;> simp [hj]
  | cons id free =>
    have hn := hf.1
    rw [h,List.nodup_cons] at hn
    have hs := (hf.2 id).1 (by simp [h])
    have hlt : id < t.slots.size := (Array.getElem?_eq_some_iff.1 hs).1
    refine ⟨by simpa [place,h] using hn.2,fun j => ?_⟩
    by_cases hj : id = j
    · simp [place,h,← hj,hlt,hn.1]
    · simp [place,h,hj,← hf.2 j,Ne.symm hj]

end Tree
end CommandShell
