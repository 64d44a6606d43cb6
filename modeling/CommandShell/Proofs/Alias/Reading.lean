import CommandShell.Alias
import CommandShell.Proofs.Substitution.Cut

/-! How the scanner reads a quoted argument.
Between two arguments it stands where a blank ends whatever was open. What follows the blank is
then read as pieces that stand for themselves, up to the end of the argument. -/
namespace CommandShell

def Token.spaceAfter (tokens : List Token) : List Token :=
  match tokens.getLast? with
  | none | some .space | some .separator => []
  | some _ => [.space]

theorem Token.spaceAfter_eq (tokens : List Token) :
    spaceAfter tokens = [] ∨ spaceAfter tokens = [.space] := by
  unfold spaceAfter
  split <;> simp

namespace Alias

def pieces (text : String) : List Char → List Token
  | [] => [.verbatim text]
  | c :: rest =>
    if c = '\'' then .verbatim text :: .verbatim "'" :: pieces "" rest
    else pieces (text.push c) rest

def argTokens (arg : String) : List Token :=
  if needsQuotes arg then pieces "" arg.toList else [.plain arg]

def followedBy (tokens : List Token) (arg : String) : List Token :=
  tokens ++ Token.spaceAfter tokens ++ argTokens arg

theorem toList_expand (a : Alias) (args : List String) :
    (a.expand args).toList =
      a.text.toList ++ args.flatMap fun arg => ' ' :: (quote arg).toList := by
  have h : ∀ line : String, (args.foldl (fun line arg => line ++ " " ++ quote arg) line).toList =
      line.toList ++ args.flatMap fun arg => ' ' :: (quote arg).toList := by
    induction args with
    | nil => simp
    | cons arg args ih =>
      intro line
      rw [List.foldl_cons,ih]
      simp
  exact h a.text

end Alias

namespace Scanner

def read (line : String) : Scanner := line.toList.foldl step initial

/-- Outside quotes, comments and substitutions, and not after a backslash. -/
def Ready (s : Scanner) : Prop := s.mode = .start ∨ s.mode = .bare ∨ s.mode = .dollar false

def done (s : Scanner) : List Token := (s.flush .plain).tokens.toList

variable {s : Scanner}

theorem finish_of_ready (h : s.Ready) : s.finish = .ok s.done := by
  rcases h with h | h | h <;> simp only [finish,h,done]

theorem ready_of_finish {tokens : List Token} (h : s.finish = .ok tokens)
    (hc : s.mode ≠ .comment) (he : s.mode ≠ .escape) : s.Ready ∧ s.done = tokens := by
  have hr : s.Ready := by
    unfold finish at h
    split at h <;> simp_all [Ready]
  rw [finish_of_ready hr] at h
  exact ⟨hr,Except.ok.inj h⟩

theorem flush_eq (s : Scanner) : s.flush .plain = ⟨s.mode,"",s.done.toArray⟩ := by
  rcases s with ⟨mode,text,tokens⟩
  by_cases h : text = ""
  · simp [done,flush,h]
  · rw [done,Array.toArray_toList]
    simp [flush,h,close]

theorem blank_mk (mode : Mode) (text : String) (tokens : List Token) :
    blank ⟨mode,text,tokens.toArray⟩ =
      ⟨mode,text,(tokens ++ Token.spaceAfter tokens).toArray⟩ := by
  simp only [blank,Token.spaceAfter,List.back?_toArray]
  split <;> simp_all [emit]

theorem step_blank (h : s.Ready) {c : Char} (hc : isBlank c = true) :
    s.step c = ⟨.start,"",(s.done ++ Token.spaceAfter s.done).toArray⟩ := by
  have hun : ∀ u : Scanner, u.unquoted c = (u.flush .plain).blank.goto .start :=
    fun _ => if_pos hc
  have hdone : (s.goto .bare).done = s.done := by
    by_cases ht : s.text = "" <;> simp [done,flush,ht,goto,close]
  rcases h with h | h | h
  · rw [step,h,hun,flush_eq,blank_mk,goto]
  · rw [step,h,hun,flush_eq,blank_mk,goto]
  · have hb : Bracket.ofChar? c = none := by
      simp only [isBlank,Bool.or_eq_true,decide_eq_true_eq] at hc
      rcases hc with (rfl | rfl) | rfl <;> decide
    rw [step,h]
    simp only [hb,Bool.false_eq_true,if_false]
    rw [hun,flush_eq,blank_mk,hdone,goto]

structure Ordinary (c : Char) : Prop where
  notBlank : isBlank c = false
  notBreak : c ≠ '\n'
  notSpecial : Alias.isSpecial c = false

def Inert (c : Char) : Prop := Text.isBlank c = false ∧ Alias.isSpecial c = false

theorem Inert.ordinary {c : Char} (hc : Inert c) : Ordinary c := by
  refine ⟨?_,?_,hc.2⟩
  · rw [← Bool.not_eq_true]
    intro h
    simp only [isBlank,Bool.or_eq_true,decide_eq_true_eq] at h
    rcases h with (rfl | rfl) | rfl <;> exact absurd hc.1 (by decide)
  · rintro rfl
    exact absurd hc.1 (by decide)

theorem step_ordinary {mode : Mode} (hm : mode = .start ∨ mode = .bare) {c : Char} (hc : Ordinary c)
    (text : String) (tokens : Array Token) :
    step ⟨mode,text,tokens⟩ c = ⟨.bare,text.push c,tokens⟩ := by
  obtain ⟨h1,hbreak,hspecial⟩ := hc
  simp only [Alias.isSpecial,Bool.or_eq_false_iff,decide_eq_false_iff_not] at hspecial
  obtain ⟨⟨⟨⟨⟨⟨⟨⟨⟨hsemi,hsingle⟩,hdouble⟩,hdollar⟩,hslash⟩,hbar⟩,hamp⟩,hlt⟩,hgt⟩,hhash⟩ := hspecial
  have h2 : isSeparator c = false := by simp [isSeparator,hsemi,hbreak]
  have h3 : isOperator c = false := by simp [isOperator,hbar,hamp,hlt,hgt]
  have hun : unquoted ⟨mode,text,tokens⟩ c = ⟨.bare,text.push c,tokens⟩ := by
    simp [unquoted,h1,h2,h3,hsingle,hdouble,hdollar,hslash,hhash,keep,goto]
  rcases hm with rfl | rfl <;> exact hun

theorem foldl_inert (cs : List Char) (hcs : ∀ c ∈ cs, Inert c) {mode : Mode}
    (hm : mode = .start ∨ mode = .bare) (hne : cs ≠ [] ∨ mode = .bare) (text : String)
    (tokens : Array Token) :
    cs.foldl step ⟨mode,text,tokens⟩ = ⟨.bare,text ++ String.ofList cs,tokens⟩ := by
  induction cs generalizing mode text with
  | nil =>
    have hb : mode = .bare := by simpa using hne
    simp [hb]
  | cons c cs ih =>
    rw [List.foldl_cons,step_ordinary hm (hcs c (by simp)).ordinary,
      ih (fun d hd => hcs d (by simp [hd])) (.inr rfl) (.inr rfl),push_append_ofList]

/-- Between single quotes all characters stand for themselves; each single quote makes a piece of
its own. -/
theorem foldl_single (cs : List Char) (text : String) (tokens : List Token) :
    (cs.flatMap Alias.quoteChar ++ ['\'']).foldl step ⟨.single,text,tokens.toArray⟩ =
      ⟨.bare,"",(tokens ++ Alias.pieces text cs).toArray⟩ := by
  induction cs generalizing text tokens with
  | nil => simp [step,close,goto,Alias.pieces]
  | cons c cs ih =>
    by_cases hc : c = '\''
    · subst hc
      have hquote : ['\'','\\','\'','\''].foldl step ⟨.single,text,tokens.toArray⟩ =
          ⟨.single,"",(tokens ++ [Token.verbatim text,.verbatim "'"]).toArray⟩ := by
        have htokens : (tokens ++ [Token.verbatim text,.verbatim "'"]).toArray =
            (tokens.toArray.push (.verbatim text)).push (.verbatim "'") := by simp
        rw [htokens]
        rfl
      have hq : Alias.quoteChar '\'' = ['\'','\\','\'','\''] := rfl
      rw [List.flatMap_cons,hq,List.append_assoc,List.foldl_append,hquote,ih]
      simp [Alias.pieces]
    · have hq : Alias.quoteChar c = [c] := by simp [Alias.quoteChar,hc]
      have hstep : step ⟨.single,text,tokens.toArray⟩ c =
          ⟨.single,text.push c,tokens.toArray⟩ := by
        simp [step,hc,keep]
      rw [List.flatMap_cons,hq,List.singleton_append,List.cons_append,List.foldl_cons,hstep,ih]
      simp [Alias.pieces,hc]

/-- An argument is read as the tokens that stand for it. -/
theorem foldl_quote (arg : String) (tokens : List Token) :
    ∃ t : Scanner, (Alias.quote arg).toList.foldl step ⟨.start,"",tokens.toArray⟩ = t ∧
      t.Ready ∧ t.done = tokens ++ Alias.argTokens arg := by
  refine ⟨_,rfl,?_⟩
  by_cases hq : Alias.needsQuotes arg = true
  · have hstart : step ⟨.start,"",tokens.toArray⟩ '\'' = ⟨.single,"",tokens.toArray⟩ := rfl
    rw [Alias.quote,if_pos hq,String.toList_ofList,List.cons_append,List.foldl_cons,hstart,
      foldl_single,Alias.argTokens,if_pos hq]
    exact ⟨.inr (.inl rfl),by simp [done,flush]⟩
  · have hneed := hq
    simp only [Alias.needsQuotes,Bool.or_eq_true,decide_eq_true_eq,List.any_eq_true,not_or,
      not_exists,not_and,Bool.not_eq_true] at hneed
    have hinert : ∀ c ∈ arg.toList, Inert c := fun c hc => hneed.2 c hc
    rw [Alias.quote,if_neg hq,foldl_inert _ hinert (.inl rfl) (.inl hneed.1),Alias.argTokens,
      if_neg hq]
    refine ⟨.inr (.inl rfl),?_⟩
    have hne : arg ≠ "" := fun h => hneed.1 (by simp [h])
    simp [done,flush,close,hne]

theorem foldl_argument (h : s.Ready) (arg : String) :
    ((' ' :: (Alias.quote arg).toList).foldl step s).Ready ∧
      ((' ' :: (Alias.quote arg).toList).foldl step s).done = Alias.followedBy s.done arg := by
  obtain ⟨t,ht,hr,hd⟩ := foldl_quote arg (s.done ++ Token.spaceAfter s.done)
  rw [List.foldl_cons,step_blank h rfl,ht]
  exact ⟨hr,hd⟩

theorem foldl_arguments (args : List String) (h : s.Ready) :
    ((args.flatMap fun arg => ' ' :: (Alias.quote arg).toList).foldl step s).Ready ∧
      ((args.flatMap fun arg => ' ' :: (Alias.quote arg).toList).foldl step s).done =
        args.foldl Alias.followedBy s.done := by
  induction args generalizing s with
  | nil => exact ⟨h,rfl⟩
  | cons arg args ih =>
    obtain ⟨hr,hd⟩ := foldl_argument h arg
    rw [List.flatMap_cons,List.foldl_append,List.foldl_cons (f := Alias.followedBy),← hd]
    exact ih hr

end Scanner

/-- The line that an alias stands for is scanned as its text, followed by the arguments. -/
theorem Alias.scan_expand (a : Alias) (args : List String) {tokens : List Token}
    (h : Token.scan a.text = .ok tokens) (hc : (Scanner.read a.text).mode ≠ .comment)
    (he : (Scanner.read a.text).mode ≠ .escape) :
    Token.scan (a.expand args) = .ok (args.foldl followedBy tokens) := by
  obtain ⟨hr,rfl⟩ := Scanner.ready_of_finish h hc he
  obtain ⟨hr',hd⟩ := Scanner.foldl_arguments args hr
  rw [Token.scan,toList_expand,List.foldl_append,← hd]
  exact Scanner.finish_of_ready hr'

end CommandShell
