import Mathlib.Order.Defs.LinearOrder
import Std.Data.DTreeMap.Internal.Balancing
import Std.Data.TreeMap

/-! Contents of a sorted map, read key by key. -/
namespace CommandShell
namespace SortedMap

variable {α β : Type} {cmp : α → α → Ordering} [Std.TransCmp cmp] [Std.LawfulEqCmp cmp]

omit [Std.TransCmp cmp] [Std.LawfulEqCmp cmp] in
theorem values_eq_map (m : Std.TreeMap α β cmp) : m.values = m.toList.map Prod.snd := by
  have h : m.values = m.foldr (fun _ v vs => v :: vs) [] := rfl
  rw [h,Std.TreeMap.foldr_eq_foldr_toList,List.map_eq_foldr]

theorem mem_values_iff {m : Std.TreeMap α β cmp} {v : β} :
    v ∈ m.values ↔ ∃ k : α, m[k]? = some v := by
  simp only [values_eq_map,List.mem_map,Prod.exists,exists_eq_right,
    Std.TreeMap.mem_toList_iff_getElem?_eq_some]

omit [Std.LawfulEqCmp cmp] in
theorem isEmpty_iff {m : Std.TreeMap α β cmp} : m.isEmpty = true ↔ ∀ k : α, m[k]? = none := by
  simp only [Std.TreeMap.isEmpty_iff_forall_not_mem,Std.TreeMap.mem_iff_isSome_getElem?,
    Option.not_isSome_iff_eq_none]

theorem getElem?_insert (m : Std.TreeMap α β cmp) (k a : α) (v : β) [DecidableEq α] :
    (m.insert k v)[a]? = if k = a then some v else m[a]? := by
  simp [Std.TreeMap.getElem?_insert]

theorem getElem?_erase (m : Std.TreeMap α β cmp) (k a : α) [DecidableEq α] :
    (m.erase k)[a]? = if k = a then none else m[a]? := by
  simp [Std.TreeMap.getElem?_erase]

theorem keys_eq {γ : Type} {m : Std.TreeMap α β cmp} {m' : Std.TreeMap α γ cmp}
    (h : ∀ k : α, m[k]? = none ↔ m'[k]? = none) : m.keys = m'.keys := by
  have hequiv : (m.map fun _ _ => ()).Equiv (m'.map fun _ _ => ()) := by
    refine .of_forall_mem_unit_iff fun k => ?_
    rw [Std.TreeMap.mem_map,Std.TreeMap.mem_map,Std.TreeMap.mem_iff_isSome_getElem?,
      Std.TreeMap.mem_iff_isSome_getElem?,Option.isSome_iff_ne_none,Option.isSome_iff_ne_none,
      ne_eq,ne_eq,h k]
  have hkeys := hequiv.keys_eq
  rwa [Std.TreeMap.keys_map,Std.TreeMap.keys_map] at hkeys

section Insert

open Std.DTreeMap.Internal

theorem impl_insert {k : α} {v : β} [Ord α] [Std.LawfulEqOrd α] {t : Impl α fun _ => β}
    (hb : t.Balanced) (h : Impl.Const.get? t k = some v) : (Impl.insert k v t hb).impl = t := by
  induction hb with
  | leaf => cases h
  | @inner size key value l r hl hr hroot hsize ihl ihr =>
    subst hsize
    have hbalanced := Impl.Balanced.inner (k := key) (v := value) hl hr hroot rfl
    simp only [Impl.Const.get?] at h
    simp only [Impl.insert]
    split <;> rename_i hc <;> simp only [hc] at h
    · simp only [ihl h,Impl.balanceL_eq_balance]
      exact Impl.balance_eq_inner hbalanced
    · simp only [ihr h,Impl.balanceR_eq_balance]
      exact Impl.balance_eq_inner hbalanced
    · obtain rfl := Std.LawfulEqOrd.eq_of_compare hc
      simp_all

omit [Std.TransCmp cmp] in
/-- To insert what is there already changes nothing, not even in how the map is kept. -/
theorem insert_eq_self {m : Std.TreeMap α β cmp} {k : α} {v : β} (h : m[k]? = some v) :
    m.insert k v = m := by
  rcases m with ⟨⟨t,wf⟩⟩
  let : Ord α := ⟨cmp⟩
  have ht : (Impl.insert k v t wf.balanced).impl = t := impl_insert wf.balanced h
  simp only [Std.TreeMap.insert,Std.DTreeMap.insert,ht]

end Insert

end SortedMap
end CommandShell
