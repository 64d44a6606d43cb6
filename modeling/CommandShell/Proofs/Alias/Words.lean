import CommandShell.Proofs.Alias.Arguments

/-! Aliases of plain words.
A text without characters that mean anything is one statement. Its expansion has the words of the
text and after them the arguments, and nothing is put in on the way. -/
namespace CommandShell

def Token.Literal : Token → Prop
  | plain text | quoted text => '$' ∉ text.toList
  | verbatim _ | space => True
  | separator => False

namespace Alias

def words (text : String) : List String :=
  ((text.toList.splitOnP Scanner.isBlank).filter (· ≠ [])).map String.ofList

/-- A text of words in which no character has a meaning. -/
structure Plain (text : String) : Prop where
  nonempty : words text ≠ []
  notBreak : '\n' ∉ text.toList
  notSpecial : ∀ c ∈ text.toList, isSpecial c = false

def wordsFrom (x : String) (cs : List Char) : List String :=
  (((cs.splitOnP Scanner.isBlank).modifyHead (x.toList ++ ·)).filter (· ≠ [])).map String.ofList

theorem wordsFrom_empty (cs : List Char) : wordsFrom "" cs =
    ((cs.splitOnP Scanner.isBlank).filter (· ≠ [])).map String.ofList := by
  cases h : cs.splitOnP Scanner.isBlank <;> simp [wordsFrom,h]

theorem wordsFrom_nil (x : String) : wordsFrom x [] = [x].filter (· ≠ "") := by
  by_cases hx : x = "" <;> simp [wordsFrom,hx]

theorem wordsFrom_blank (x : String) {c : Char} (hc : Scanner.isBlank c = true) (cs : List Char) :
    wordsFrom x (c :: cs) = wordsFrom x [] ++ wordsFrom "" cs := by
  rw [wordsFrom_empty,wordsFrom_nil]
  by_cases hx : x = "" <;> simp [wordsFrom,List.splitOnP_cons_eq_if_modifyHead,hc,hx]

theorem wordsFrom_push (x : String) {c : Char} (hc : Scanner.isBlank c = false) (cs : List Char) :
    wordsFrom x (c :: cs) = wordsFrom (x.push c) cs := by
  cases h : cs.splitOnP Scanner.isBlank <;>
    simp [wordsFrom,List.splitOnP_cons_eq_if_modifyHead,hc,h]

end Alias

theorem Token.literal_spaceAfter (tokens : List Token) : ∀ t ∈ spaceAfter tokens, t.Literal := by
  rcases spaceAfter_eq tokens with h | h <;> simp [h,Literal]

theorem Token.separator_notMem {tokens : List Token} (h : ∀ t ∈ tokens, t.Literal) :
    separator ∉ tokens := fun hm => h _ hm

namespace Scanner

variable {mode : Mode} {x : String} {tokens : List Token} {c : Char} {cs : List Char}

theorem done_mk (mode : Mode) (x : String) (tokens : List Token) :
    done ⟨mode,x,tokens.toArray⟩ = tokens ++ ([x].filter (· ≠ "")).map .plain := by
  by_cases hx : x = "" <;> simp [done,flush,close,hx]

theorem literal_done (hx : '$' ∉ x.toList) (ht : ∀ t ∈ tokens, t.Literal) (mode : Mode) :
    ∀ t ∈ done ⟨mode,x,tokens.toArray⟩, t.Literal := by
  rw [done_mk]
  refine List.forall_mem_append.2 ⟨ht,?_⟩
  by_cases he : x = "" <;> simp [he,Token.Literal,hx]

theorem step_wordy_blank (hm : mode = .start ∨ mode = .bare) (hc : isBlank c = true) :
    step ⟨mode,x,tokens.toArray⟩ c = ⟨.start,"",(done ⟨mode,x,tokens.toArray⟩ ++
      Token.spaceAfter (done ⟨mode,x,tokens.toArray⟩)).toArray⟩ :=
  step_blank (hm.imp_right .inl : Ready ⟨mode,x,_⟩) hc

theorem Ordinary.ne_dollar (hc : Ordinary c) : c ≠ '$' := by
  rintro rfl
  exact absurd hc.notSpecial (by decide)

theorem mode_foldl_words (hcs : ∀ c ∈ cs, isBlank c = true ∨ Ordinary c)
    (hm : mode = .start ∨ mode = .bare) (x : String) (tokens : List Token) :
    (cs.foldl step ⟨mode,x,tokens.toArray⟩).mode = .start ∨
      (cs.foldl step ⟨mode,x,tokens.toArray⟩).mode = .bare := by
  induction cs generalizing mode x tokens with
  | nil => exact hm
  | cons c cs ih =>
    obtain ⟨hc,hcs⟩ := List.forall_mem_cons.1 hcs
    rw [List.foldl_cons]
    rcases hc with hc | hc
    · rw [step_wordy_blank hm hc]
      exact ih hcs (.inl rfl) _ _
    · rw [step_ordinary hm hc]
      exact ih hcs (.inr rfl) _ _

theorem literal_foldl_words (hcs : ∀ c ∈ cs, isBlank c = true ∨ Ordinary c)
    (hm : mode = .start ∨ mode = .bare) (hx : '$' ∉ x.toList) (ht : ∀ t ∈ tokens, t.Literal) :
    ∀ t ∈ (cs.foldl step ⟨mode,x,tokens.toArray⟩).done, t.Literal := by
  induction cs generalizing mode x tokens with
  | nil => exact literal_done hx ht mode
  | cons c cs ih =>
    obtain ⟨hc,hcs⟩ := List.forall_mem_cons.1 hcs
    rw [List.foldl_cons]
    rcases hc with hc | hc
    · rw [step_wordy_blank hm hc]
      refine ih hcs (.inl rfl) (by simp) ?_
      exact List.forall_mem_append.2 ⟨literal_done hx ht mode,Token.literal_spaceAfter _⟩
    · rw [step_ordinary hm hc]
      exact ih hcs (.inr rfl) (by simpa [hx] using hc.ne_dollar.symm) ht

end Scanner

namespace Reentry

open Scanner

variable {κ : Type} (inner : Reentry κ) {mode : Mode} {x : String} {tokens : List Token}

theorem assemble_spaceAfter (hsep : Token.separator ∉ tokens) :
    inner.assemble (tokens ++ Token.spaceAfter tokens) =
      Assembly.flush <$> inner.assemble tokens := by
  rcases Token.spaceAfter_eq tokens with h | h
  · rw [h,List.append_nil,inner.flush_assemble h hsep]
  · rw [h]
    simp [assemble,List.filterMap_append,Fragment.ofToken?]

theorem words_done (hx : '$' ∉ x.toList)
    (hflush : Assembly.flush <$> inner.assemble tokens = inner.assemble tokens) (mode : Mode) :
    (fun a => a.flush.words) <$> inner.assemble (done ⟨mode,x,tokens.toArray⟩) =
      (fun a => a.flush.words ++ Alias.wordsFrom x []) <$> inner.assemble tokens := by
  rw [done_mk,Alias.wordsFrom_nil]
  by_cases he : x = ""
  · simp [he]
  · have hadd : inner.assemble (tokens ++ [.plain x]) = (·.add x) <$> inner.assemble tokens := by
      simp [assemble,List.filterMap_append,Fragment.ofToken?,expandFragment,
        inner.expandText_of_notMem he hx]
    have hone : ([x].filter (· ≠ "")).map Token.plain = [.plain x] := by simp [he]
    rw [hone,hadd,← hflush]
    simp only [Functor.map_map,Assembly.words_add,Assembly.flush_flush]

/-- What is assembled from words are these words. -/
theorem words_foldl_words {cs : List Char} (hcs : ∀ c ∈ cs, isBlank c = true ∨ Ordinary c)
    (hm : mode = .start ∨ mode = .bare) (hx : '$' ∉ x.toList) (ht : ∀ t ∈ tokens, t.Literal)
    (hflush : Assembly.flush <$> inner.assemble tokens = inner.assemble tokens) :
    (fun a => a.flush.words) <$> inner.assemble (cs.foldl step ⟨mode,x,tokens.toArray⟩).done =
      (fun a => a.flush.words ++ Alias.wordsFrom x cs) <$> inner.assemble tokens := by
  induction cs generalizing mode x tokens with
  | nil => exact inner.words_done hx hflush mode
  | cons c cs ih =>
    obtain ⟨hc,hcs⟩ := List.forall_mem_cons.1 hcs
    rw [List.foldl_cons]
    by_cases hblank : isBlank c = true
    · have hdone := literal_done hx ht mode
      have hspace := inner.assemble_spaceAfter (Token.separator_notMem hdone)
      have hbefore := congrArg ((· ++ Alias.wordsFrom "" cs) <$> ·)
        (inner.words_done hx hflush mode)
      rw [step_wordy_blank hm hblank,ih hcs (.inl rfl) (by simp)
        (List.forall_mem_append.2 ⟨hdone,Token.literal_spaceAfter _⟩)
        (by rw [hspace]; simp),hspace,Alias.wordsFrom_blank x hblank]
      simpa [Functor.map_map,Function.comp_def] using hbefore
    · have hc := hc.resolve_left hblank
      rw [step_ordinary hm hc,ih hcs (.inr rfl) (by simpa [hx] using hc.ne_dollar.symm) ht hflush,
        Alias.wordsFrom_push x hc.notBlank]

end Reentry

def Fragment.Literal : Fragment → Prop
  | plain text | quoted text => '$' ∉ text.toList
  | verbatim _ | space => True

theorem Fragment.literal_of_token {t : Token} {f : Fragment} (ht : t.Literal)
    (hf : ofToken? t = some f) : f.Literal := by
  cases t <;> cases hf <;> exact ht

namespace Alias

theorem literal_pieces (text : String) (cs : List Char) : ∀ t ∈ pieces text cs, t.Literal := by
  induction cs generalizing text with
  | nil => simp [pieces,Token.Literal]
  | cons c cs ih =>
    rw [pieces]
    split
    · exact List.forall_mem_cons.2 ⟨trivial,List.forall_mem_cons.2 ⟨trivial,ih _⟩⟩
    · exact ih _

theorem literal_argTokens (arg : String) : ∀ t ∈ argTokens arg, t.Literal := by
  unfold argTokens
  split
  case isTrue => exact literal_pieces _ _
  case isFalse hq => simpa [Token.Literal] using (notMem_of_not_needsQuotes hq).2

theorem literal_followedBy {tokens : List Token} (args : List String)
    (ht : ∀ t ∈ tokens, t.Literal) : ∀ t ∈ args.foldl followedBy tokens, t.Literal := by
  induction args generalizing tokens with
  | nil => exact ht
  | cons arg args ih =>
    refine ih (List.forall_mem_append.2 ⟨List.forall_mem_append.2 ⟨ht,?_⟩,literal_argTokens arg⟩)
    exact Token.literal_spaceAfter tokens

theorem Plain.scan {text : String} (h : Plain text) :
    Token.scan text = .ok (Scanner.read text).done ∧
      ((Scanner.read text).mode = .start ∨ (Scanner.read text).mode = .bare) ∧
      (∀ t ∈ (Scanner.read text).done, t.Literal) ∧
      ∀ {κ : Type} (inner : Reentry κ),
        (fun a => a.flush.words) <$> inner.assemble (Scanner.read text).done =
          pure (Alias.words text) := by
  have hcs : ∀ c ∈ text.toList, Scanner.isBlank c = true ∨ Scanner.Ordinary c := by
    intro c hc
    by_cases hblank : Scanner.isBlank c = true
    · exact .inl hblank
    · exact .inr ⟨by simpa using hblank,fun he => h.notBreak (he ▸ hc),h.notSpecial c hc⟩
  have hmode := Scanner.mode_foldl_words hcs (.inl rfl) "" []
  have hopen : '$' ∉ "".toList := by simp
  have hdone : ∀ t ∈ ([] : List Token), t.Literal := List.forall_mem_nil _
  refine ⟨Scanner.finish_of_ready (hmode.imp_right .inl),hmode,
    Scanner.literal_foldl_words hcs (.inl rfl) hopen hdone,?_⟩
  intro κ inner
  have hwords := inner.words_foldl_words hcs (.inl rfl) hopen hdone
    (by simp [Reentry.assemble,Reentry.Assembly.flush])
  rw [wordsFrom_empty] at hwords
  exact hwords.trans (by simp [Reentry.assemble,Reentry.Assembly.flush,Alias.words])

/-- The line of an alias of plain words is one statement: nothing is put in there, and its words are
those of the text and then the arguments. -/
theorem Plain.parse_expand {a : Alias} (h : Plain a.text) (args : List String) :
    ∃ st, Line.parse (a.expand args) = .ok ⟨[st]⟩ ∧ (∀ f ∈ st.fragments, f.Literal) ∧
      ∀ {κ : Type} (inner : Reentry κ),
        inner.expand st = pure (Alias.words a.text ++ args.filter (· ≠ "")) := by
  obtain ⟨hscan,hmode,hliteral,hwords⟩ := h.scan
  have hexpand := a.scan_expand args hscan (by rcases hmode with hm | hm <;> simp [hm])
    (by rcases hmode with hm | hm <;> simp [hm])
  have hall := literal_followedBy args hliteral
  generalize htokens : args.foldl followedBy (Scanner.read a.text).done = tokens at hexpand hall
  have hstatement : ∀ {κ : Type} (inner : Reentry κ),
      inner.expandAll (Statement.ofTokens? tokens) =
        pure (Alias.words a.text ++ args.filter (· ≠ "")) := by
    intro κ inner
    have hmore := congrArg ((· ++ args.filter (· ≠ "")) <$> ·) (hwords inner)
    rw [inner.expandAll_ofTokens?,← htokens,
      inner.words_foldl_followedBy args (Token.separator_notMem hliteral)]
    simpa [Functor.map_map] using hmore
  have hline : Line.parse (a.expand args) = .ok ⟨(Statement.ofTokens? tokens).toList⟩ := by
    rw [Line.parse,hexpand]
    have hsplit := List.splitOn_eq_singleton (Token.separator_notMem hall)
    cases hst : Statement.ofTokens? tokens <;> simp [Except.map,Line.ofTokens,hsplit,hst]
  cases hst : Statement.ofTokens? tokens with
  | none =>
    -- there is a statement, for there is a word
    have hnone := hstatement (⟨fun _ => pure none,fun _ _ => pure .null⟩ : Reentry Unit)
    rw [hst] at hnone
    have hrun := congrFun (congrArg ExceptT.run hnone) ⟨default,.empty,default⟩
    obtain ⟨hnil⟩ := Prod.mk.inj (Option.some.inj hrun)
    exact absurd (List.append_eq_nil_iff.1 (Except.ok.inj hnil).symm).1 h.nonempty
  | some st =>
    rw [hst] at hline hstatement
    refine ⟨st,hline,fun f hf => ?_,hstatement⟩
    rw [← (Statement.ofTokens?_eq_some_iff.1 hst).2] at hf
    obtain ⟨t,ht,htoken⟩ := List.mem_filterMap.1 (Statement.mem_of_mem_trim hf)
    exact Fragment.literal_of_token (hall t ht) htoken

end Alias
end CommandShell
