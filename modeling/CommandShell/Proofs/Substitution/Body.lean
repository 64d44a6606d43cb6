import Mathlib.Data.List.Basic
import CommandShell.Word

/-! Bodies of substitutions.
The scanner reads a body one character at a time, and a finished word is searched for the bracket
that closes it. Both stop at the same bracket. -/
namespace CommandShell
namespace Body

/-- Reads on until a character closes the body: what stands before and after it. -/
def run? (b : Body) : List Char → Option (List Char × List Char)
  | [] => none
  | c :: rest =>
    match b.step c with
    | none => some ([],rest)
    | some b => (b.run? rest).map fun r => (c :: r.1,r.2)

/-- The body is closed by the bracket that follows `inner`, and by none before it. -/
def Closes (b : Bracket) (inner : List Char) : Prop :=
  ∃ k, inner.foldlM step (opened b) = some k ∧ k.step b.closing = none

theorem bracket_step {b k : Body} {c : Char} (h : b.step c = some k) : k.bracket = b.bracket := by
  unfold step at h
  grind

theorem bracket_foldlM {cs : List Char} {b k : Body} (h : cs.foldlM step b = some k) :
    k.bracket = b.bracket := by
  induction cs generalizing b with
  | nil => exact congrArg bracket (Option.some.inj h).symm
  | cons c cs ih =>
    obtain ⟨b',hb',h⟩ := Option.bind_eq_some_iff.1 h
    exact (ih h).trans (bracket_step hb')

theorem eq_closing_of_step {b : Body} {c : Char} (h : b.step c = none) :
    c = b.bracket.closing := by
  unfold step at h
  grind

theorem run?_of_foldlM {inner : List Char} {b k : Body} (h : inner.foldlM step b = some k)
    {c : Char} (hc : k.step c = none) (after : List Char) :
    b.run? (inner ++ c :: after) = some (inner,after) := by
  induction inner generalizing b with
  | nil =>
    obtain rfl := Option.some.inj h
    simp [run?,hc]
  | cons d inner ih =>
    obtain ⟨b',hb,h⟩ := Option.bind_eq_some_iff.1 h
    simp [run?,hb,ih h]

theorem foldlM_of_run? {cs inner after : List Char} {b : Body}
    (h : b.run? cs = some (inner,after)) : ∃ k c, cs = inner ++ c :: after ∧
      inner.foldlM step b = some k ∧ k.step c = none := by
  induction cs generalizing b inner with
  | nil => cases h
  | cons c cs ih =>
    rw [run?] at h
    cases hb : b.step c with
    | none =>
      obtain ⟨rfl,rfl⟩ : [] = inner ∧ cs = after := by simpa [hb] using h
      exact ⟨b,c,rfl,rfl,hb⟩
    | some b' =>
      simp only [hb,Option.map_eq_some_iff] at h
      obtain ⟨⟨inner',after'⟩,hr,he⟩ := h
      obtain ⟨rfl,rfl⟩ := Prod.mk.inj he
      obtain ⟨k,d,rfl,hk,hd⟩ := ih hr
      exact ⟨k,d,rfl,by simp [hb,hk],hd⟩

theorem Closes.run? {b : Bracket} {inner : List Char} (h : Closes b inner) (after : List Char) :
    (opened b).run? (inner ++ b.closing :: after) = some (inner,after) := by
  obtain ⟨k,hk,hc⟩ := h
  exact run?_of_foldlM hk hc after

end Body

namespace Word

theorem body?_eq_run? (b : Bracket) (depth : Nat) (q : Option Char) (s : List Char) :
    body? b depth q s = Body.run? ⟨b,depth,q,false⟩ s := by
  fun_induction body? b depth q s
  -- after a backslash the search takes two characters at once
  case case4 hc d rest ih =>
    obtain ⟨rfl,rfl⟩ := hc
    simp [Body.run?,Body.step,ih,Function.comp_def]
  case case8 hc d rest ih =>
    simp [Body.run?,Body.step,hc,ih,Function.comp_def]
  all_goals grind [Body.run?,Body.step]

theorem body?_of_closes {b : Bracket} {inner : List Char} (h : Body.Closes b inner)
    (after : List Char) : body? b 1 none (inner ++ b.closing :: after) = some (inner,after) := by
  rw [body?_eq_run?]
  exact h.run? after

end Word

theorem push_append_ofList (text : String) (c : Char) (cs : List Char) :
    text.push c ++ String.ofList cs = text ++ String.ofList (c :: cs) := by
  rw [← String.toList_inj]
  simp

theorem Scanner.foldl_body {i : Bool} {cs : List Char} {b k : Body}
    (hk : cs.foldlM Body.step b = some k) (text : String) (tokens : Array Token) :
    cs.foldl Scanner.step ⟨.body i b,text,tokens⟩ =
      ⟨.body i k,text ++ String.ofList cs,tokens⟩ := by
  induction cs generalizing b text with
  | nil =>
    obtain rfl := Option.some.inj hk
    simp
  | cons c cs ih =>
    obtain ⟨b',hb,hk⟩ := Option.bind_eq_some_iff.1 hk
    have hs : Scanner.step ⟨.body i b,text,tokens⟩ c = ⟨.body i b',text.push c,tokens⟩ := by
      simp [Scanner.step,hb,Scanner.keep,Scanner.goto]
    rw [List.foldl_cons,hs,ih hk,push_append_ofList]

end CommandShell
