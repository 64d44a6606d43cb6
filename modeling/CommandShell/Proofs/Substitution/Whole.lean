import CommandShell.Line
import CommandShell.Proofs.Substitution.Cut
import CommandShell.Proofs.Substitution.Enclosed

/-! Substitutions that keep together.
A text between the brackets of a substitution is its whole body exactly when its own brackets
match. -/
namespace CommandShell
namespace Body

theorem closes_of_run? {b : Bracket} {cs inner after : List Char}
    (h : (opened b).run? cs = some (inner,after)) :
    cs = inner ++ b.closing :: after ∧ Closes b inner := by
  obtain ⟨k,c,rfl,hk,hc⟩ := foldlM_of_run? h
  have hclosing := eq_closing_of_step hc
  rw [bracket_foldlM hk] at hclosing
  obtain rfl : c = b.closing := hclosing
  exact ⟨rfl,k,hk,hc⟩

theorem closes_of_encloses {b : Bracket} {inner : List Char} (h : b.Encloses inner) :
    Closes b inner :=
  ⟨reading b 0,passes_encloses h 0,step_last b⟩

theorem closes_iff_encloses {b : Bracket} {inner : List Char} :
    Closes b inner ↔ b.Encloses inner := by
  refine ⟨fun h => ?_,closes_of_encloses⟩
  obtain ⟨inner',rest,he,hi⟩ | hs := begins_or_stays b (inner ++ [b.closing])
  · -- the reader comes to the end of only one body
    have hrun := (closes_of_encloses hi).run? rest
    rw [← he,h.run? []] at hrun
    exact (Prod.mk.inj (Option.some.inj hrun)).1 ▸ hi
  · obtain ⟨k,hk,hc⟩ := h
    obtain ⟨k',hk'⟩ := hs 0
    have hread : (opened b).Passes k inner := hk
    rw [Passes,List.foldlM_append,show reading b 0 = opened b from rfl,hread] at hk'
    change (k.step b.closing).bind _ = _ at hk'
    rw [hc] at hk'
    cases hk'

end Body

namespace Bracket

variable {b : Bracket} {text : String}

def surround (b : Bracket) (text : String) : String :=
  String.ofList ('$' :: b.opening :: (text.toList ++ [b.closing]))

theorem toList_surround (b : Bracket) (text : String) :
    (b.surround text).toList = '$' :: b.opening :: (text.toList ++ [b.closing]) :=
  String.toList_ofList

theorem surround_ne_empty (b : Bracket) (text : String) : b.surround text ≠ "" := by
  simp [← String.toList_inj,toList_surround]

theorem foldl_surround (h : Body.Closes b text.toList) {s : Scanner} {i : Bool}
    (hs : s.step '$' = (s.keep '$').goto (.dollar i)) :
    (b.surround text).toList.foldl Scanner.step s =
      ⟨if i then .double else .bare,s.text ++ b.surround text,s.tokens⟩ := by
  obtain ⟨k,hk,hclose⟩ := h
  have hopen : ((s.keep '$').goto (.dollar i)).step b.opening =
      ⟨.body i (.opened b),s.text ++ String.ofList ['$',b.opening],s.tokens⟩ := by
    simp [Scanner.step,Scanner.keep,Scanner.goto,ofChar?_opening,← String.toList_inj]
  rw [toList_surround,List.foldl_cons,List.foldl_cons,hs,hopen,List.foldl_append,
    Scanner.foldl_body hk]
  simp [Scanner.step,hclose,Scanner.keep,Scanner.goto,surround,← String.toList_inj]

theorem scan_surround (h : Body.Closes b text.toList) :
    Token.scan (b.surround text) = .ok [.plain (b.surround text)] := by
  have hfold := foldl_surround h (s := .initial) (i := false) rfl
  rw [Token.scan,hfold]
  simp [Scanner.initial,Scanner.finish,Scanner.flush,Scanner.close,surround_ne_empty]

theorem scan_quoted_surround (h : Body.Closes b text.toList) :
    Token.scan ("\"" ++ b.surround text ++ "\"") = .ok [.quoted (b.surround text)] := by
  have hfold := foldl_surround h (s := ⟨.double,"",#[]⟩) (i := true) rfl
  have hopen : Scanner.step .initial '"' = ⟨.double,"",#[]⟩ := rfl
  have htext : ("\"" ++ b.surround text ++ "\"").toList =
      '"' :: ((b.surround text).toList ++ ['"']) := by
    simp
  rw [Token.scan,htext,List.foldl_cons,hopen,List.foldl_append,hfold]
  simp [Scanner.step,Scanner.quoted,Scanner.close,Scanner.goto,Scanner.finish,Scanner.flush]

theorem parse_surround (h : Body.Closes b text.toList) :
    Line.parse (b.surround text) = .ok ⟨[⟨[.plain (b.surround text)]⟩]⟩ := by
  rw [Line.parse,scan_surround h]
  rfl

/-- A word that is one substitution is cut into that substitution alone just when its text closes
the body at the last bracket. -/
theorem split_surround_iff : Word.split (b.surround text) = [.ofBody b text.toList] ↔
    Body.Closes b text.toList := by
  rw [Word.split,toList_surround]
  constructor
  · intro h
    cases hbody : Word.body? b 1 none (text.toList ++ [b.closing]) with
    | none =>
      rw [Word.cut_unclosed "" hbody] at h
      cases b <;> simp [Word.withLiteral,Word.Part.ofBody] at h
    | some r =>
      obtain ⟨inner,after⟩ := r
      rw [Word.cut_body "" hbody] at h
      have hinner : inner = text.toList := by
        have hfirst := (List.cons.inj h).1
        cases b <;> simpa [Word.Part.ofBody,← String.toList_inj] using hfirst
      rw [Word.body?_eq_run?] at hbody
      exact hinner ▸ (Body.closes_of_run? hbody).2
  · intro h
    rw [Word.cut_body "" (Word.body?_of_closes h []),Word.cut_nil]
    simp [Word.withLiteral]

end Bracket
end CommandShell
