import Mathlib.Data.List.Basic
import CommandShell.Proofs.Substitution.Body

/-! How a word is cut, case by case. -/
namespace CommandShell

theorem Bracket.ofChar?_opening (b : Bracket) : ofChar? b.opening = some b := by
  cases b <;> rfl

theorem Bracket.eq_opening_of_ofChar? {b : Bracket} {c : Char} (h : ofChar? c = some b) :
    c = b.opening := by
  unfold ofChar? at h
  split_ifs at h with h1 h2
  · rw [h1,← Option.some.inj h]
  · rw [h2,← Option.some.inj h]

namespace Word

variable {c d : Char} {tail : List Char}

theorem cut_nil (text : String) : cut text [] = withLiteral text [] := by
  unfold cut
  rfl

theorem cut_cons (text : String) (tail : List Char) (h : c ≠ '$') :
    cut text (c :: tail) = cut (text.push c) tail := by
  rw [cut.eq_def]
  exact if_pos h

theorem cut_dollar_nil (text : String) : cut text ['$'] = withLiteral (text.push '$') [] := by
  unfold cut
  rfl

theorem cut_body (text : String) {b : Bracket} {inner after : List Char}
    (h : body? b 1 none tail = some (inner,after)) :
    cut text ('$' :: b.opening :: tail) = withLiteral text (.ofBody b inner :: cut "" after) := by
  rw [cut.eq_def]
  simp only [ne_eq,not_true_eq_false,if_false,Bracket.ofChar?_opening]
  split <;> simp_all

theorem cut_unclosed (text : String) {b : Bracket} (h : body? b 1 none tail = none) :
    cut text ('$' :: b.opening :: tail) =
      withLiteral (text ++ String.ofList ('$' :: b.opening :: tail)) [] := by
  rw [cut.eq_def]
  simp only [ne_eq,not_true_eq_false,if_false,Bracket.ofChar?_opening]
  split <;> simp_all

theorem cut_name (text : String) (hd : Bracket.ofChar? d = none) (hs : startsName d = true) :
    cut text ('$' :: d :: tail) = withLiteral text
      (.parameter (String.ofList ((d :: tail).takeWhile continuesName)) ::
        cut "" ((d :: tail).dropWhile continuesName)) := by
  rw [cut.eq_def]
  simp [hd,hs]

theorem cut_dollar (text : String) (hd : Bracket.ofChar? d = none) (hs : startsName d ≠ true) :
    cut text ('$' :: d :: tail) = cut (text.push '$') (d :: tail) := by
  rw [cut.eq_def]
  simp [hd,hs]

theorem cut_eq_of_notMem (text : String) (cs : List Char) (h : '$' ∉ cs) :
    cut text cs = withLiteral (text ++ String.ofList cs) [] := by
  induction cs generalizing text with
  | nil => simp [cut_nil]
  | cons c cs ih =>
    have hc : c ≠ '$' := fun he => h (he ▸ List.mem_cons_self)
    rw [cut_cons text cs hc,ih _ fun hm => h (List.mem_cons_of_mem _ hm),push_append_ofList]

end Word
end CommandShell
