import CommandShell.Proofs.Alias.Statements
import CommandShell.Proofs.NormalPath
import CommandShell.Session.Run

/-! Arguments of an alias are not evaluated again.
Expanding the line that an alias stands for gives the words of its text, followed by the arguments
as they are. -/
namespace CommandShell

theorem Alias.notMem_of_not_needsQuotes {arg : String} (h : ¬needsQuotes arg = true) :
    arg ≠ "" ∧ '$' ∉ arg.toList := by
  simp only [needsQuotes,Bool.or_eq_true,decide_eq_true_eq,List.any_eq_true,not_or,not_exists,
    not_and,Bool.not_eq_true] at h
  refine ⟨fun he => h.1 (by simp [he]),fun hm => ?_⟩
  exact absurd (h.2 _ hm).2 (by decide)

namespace Reentry

variable {κ : Type} (inner : Reentry κ)

@[simp] theorem expandFragment_space (a : Assembly) :
    inner.expandFragment a .space = pure a.flush := rfl

@[simp] theorem expandFragment_verbatim (a : Assembly) (text : String) :
    inner.expandFragment a (.verbatim text) = pure (a.add text) := rfl

def assemble (tokens : List Token) : ShellAct κ Assembly :=
  (tokens.filterMap Fragment.ofToken?).foldlM inner.expandFragment ⟨[],""⟩

def expandAll : Option Statement → ShellAct κ (List String)
  | none => pure []
  | some s => inner.expand s

@[simp] theorem Assembly.flush_flush (a : Assembly) : a.flush.flush = a.flush := by
  unfold Assembly.flush
  split_ifs <;> simp_all

theorem flush_foldlM_trim (fragments : List Fragment) :
    Assembly.flush <$> (Statement.trim fragments).foldlM inner.expandFragment ⟨[],""⟩ =
      Assembly.flush <$> fragments.foldlM inner.expandFragment ⟨[],""⟩ := by
  have hend : Assembly.flush <$>
      (fragments.rdropWhile (· = .space)).foldlM inner.expandFragment ⟨[],""⟩ =
        Assembly.flush <$> fragments.foldlM inner.expandFragment ⟨[],""⟩ := by
    induction fragments using List.reverseRecOn with
    | nil => rfl
    | append_singleton fragments f ih =>
      rw [List.rdropWhile_concat]
      split
      case isTrue hf =>
        obtain rfl : f = .space := by simpa using hf
        rw [ih,List.foldlM_append]
        simp
      case isFalse => rfl
  rw [← hend,Statement.trim_eq]
  split
  case isTrue hhead =>
    obtain ⟨rest,hrest⟩ := List.head?_eq_some_iff.1 hhead
    rw [hrest,List.tail_cons,List.foldlM_cons,expandFragment_space,pure_bind]
    rfl
  case isFalse => rfl

theorem expandAll_ofTokens? (tokens : List Token) :
    inner.expandAll (Statement.ofTokens? tokens) =
      (fun a => a.flush.words) <$> inner.assemble tokens := by
  have htrim := congrArg (Assembly.words <$> ·)
    (inner.flush_foldlM_trim (tokens.filterMap Fragment.ofToken?))
  simp only [Functor.map_map] at htrim
  rw [assemble,← htrim]
  unfold Statement.ofTokens?
  split
  case h_1 hnil =>
    rw [hnil]
    simp [expandAll,Assembly.flush]
  case h_2 fragments hne =>
    simp [expandAll,expand]

theorem flush_assemble {tokens : List Token} (h : Token.spaceAfter tokens = [])
    (hsep : Token.separator ∉ tokens) :
    Assembly.flush <$> inner.assemble tokens = inner.assemble tokens := by
  cases tokens using List.reverseRecOn with
  | nil => rfl
  | append_singleton tokens t =>
    have ht : t = .space := by
      simp only [Token.spaceAfter,List.getLast?_concat] at h
      split at h <;> simp_all
    subst ht
    simp [assemble,List.filterMap_append,Fragment.ofToken?]

theorem expandText_of_notMem {text : String} (hne : text ≠ "") (h : '$' ∉ text.toList) :
    inner.expandText text = pure text := by
  have hsplit : Word.split text = [.literal text] := by
    rw [Word.split,Word.cut_eq_of_notMem _ _ h]
    simp [Word.withLiteral,hne]
  rw [expandText,hsplit]
  simp [expandPart,String.join]

theorem foldlM_pieces (a : Assembly) (text : String) (cs : List Char) :
    ((Alias.pieces text cs).filterMap Fragment.ofToken?).foldlM inner.expandFragment a =
      pure (a.add (text ++ String.ofList cs)) := by
  induction cs generalizing a text with
  | nil => simp [Alias.pieces,Fragment.ofToken?]
  | cons c cs ih =>
    rw [Alias.pieces]
    split
    case isTrue hc =>
      subst hc
      simp [Fragment.ofToken?,ih,Assembly.add,String.append_assoc]
    case isFalse => rw [ih,push_append_ofList]

theorem foldlM_argTokens (a : Assembly) (arg : String) :
    ((Alias.argTokens arg).filterMap Fragment.ofToken?).foldlM inner.expandFragment a =
      pure (a.add arg) := by
  unfold Alias.argTokens
  split
  case isTrue =>
    rw [foldlM_pieces]
    simp
  case isFalse hq =>
    have hplain := Alias.notMem_of_not_needsQuotes hq
    simp [Fragment.ofToken?,expandFragment,inner.expandText_of_notMem hplain.1 hplain.2]

theorem assemble_followedBy {tokens : List Token} (hsep : Token.separator ∉ tokens)
    (arg : String) :
    inner.assemble (Alias.followedBy tokens arg) =
      (fun a => a.flush.add arg) <$> inner.assemble tokens := by
  have hadd : inner.assemble (Alias.followedBy tokens arg) =
      inner.assemble tokens >>= fun a =>
        ((Token.spaceAfter tokens).filterMap Fragment.ofToken?).foldlM inner.expandFragment a >>=
          fun a => pure (a.add arg) := by
    simp only [assemble,Alias.followedBy,List.filterMap_append,List.foldlM_append,bind_assoc,
      foldlM_argTokens]
  rcases Token.spaceAfter_eq tokens with h | h
  · have hflush := congrArg ((fun a => a.add arg) <$> ·) (inner.flush_assemble h hsep)
    simp only [Functor.map_map] at hflush
    rw [hadd,h,hflush]
    simp
  · rw [hadd,h]
    simp [Fragment.ofToken?]

theorem Assembly.words_add (a : Assembly) (arg : String) :
    (a.flush.add arg).flush.words = a.flush.words ++ [arg].filter (· ≠ "") := by
  have htext : a.flush.text = "" := by
    unfold Assembly.flush
    split_ifs with h <;> simp [h]
  generalize a.flush = b at htext ⊢
  by_cases h : arg = "" <;> simp [Assembly.add,Assembly.flush,htext,h]

/-- The words of a statement that goes on with arguments. -/
theorem words_foldl_followedBy (args : List String) {tokens : List Token}
    (hsep : Token.separator ∉ tokens) :
    (fun a => a.flush.words) <$> inner.assemble (args.foldl Alias.followedBy tokens) =
      (fun a => a.flush.words ++ args.filter (· ≠ "")) <$> inner.assemble tokens := by
  induction args generalizing tokens with
  | nil => simp
  | cons arg args ih =>
    have hsep' : Token.separator ∉ Alias.followedBy tokens arg := by
      simp [Alias.followedBy,hsep,Alias.separator_notMem_spaceAfter,
        Alias.separator_notMem_argTokens]
    rw [List.foldl_cons,ih hsep',assemble_followedBy inner hsep,Functor.map_map]
    simp only [Assembly.words_add,List.append_assoc,← List.filter_append,List.singleton_append]

end Reentry

namespace Alias

theorem separator_notMem_rest (tokens : List Token) : Token.separator ∉ Line.rest tokens := by
  obtain ⟨init,r,h⟩ := List.eq_nil_or_concat' (tokens.splitOn .separator) |>.resolve_left
    (List.splitOn_ne_nil _ _)
  have hr : Line.rest tokens = r := by simp [Line.rest,h]
  rw [hr]
  exact Separated.notMem_of_mem_splitOn (l := tokens) (by simp [h])

theorem isSome_last?_followedBy (args : List String) (tokens : List Token) :
    (Line.last? (args.foldl followedBy tokens)).isSome ↔
      (Line.last? tokens).isSome ∨ args ≠ [] := by
  rw [Line.last?,Line.last?,(foldl_followedBy args tokens).2.2]
  cases args with
  | nil => simp
  | cons arg args =>
    obtain ⟨t,ht,hne⟩ := argTokens_ne_nil arg
    have hsep : t ≠ .separator := fun he => separator_notMem_argTokens arg (he ▸ ht)
    have hmem : t ∈ followedBy (Line.rest tokens) arg := by simp [followedBy,ht]
    have hpre := (foldl_followedBy args (followedBy (Line.rest tokens) arg)).1
    have hsome : (Statement.ofTokens? ((arg :: args).foldl followedBy (Line.rest tokens))).isSome :=
      Statement.ofTokens?_isSome_iff.2 ⟨t,hpre.subset hmem,hne,hsep⟩
    exact iff_of_true hsome (.inr (List.cons_ne_nil arg args))

/-- For every alias whose text can be scanned and ends neither in a comment nor on a backslash,
and for all arguments whatsoever: the tokens of the text come first, the statements that a
separator ends are left alone, and the last statement goes on with the arguments. Its expansion
does what the expansion of the text alone does, and its words are followed by the arguments that
are not empty, each as it was. -/
theorem expand_appends (a : Alias) (args : List String) {tokens : List Token}
    (h : Token.scan a.text = .ok tokens) (hc : (Scanner.read a.text).mode ≠ .comment)
    (he : (Scanner.read a.text).mode ≠ .escape) :
    ∃ more, Token.scan (a.expand args) = .ok (tokens ++ more) ∧
      Line.parse a.text = .ok ⟨Line.closed tokens ++ (Line.last? tokens).toList⟩ ∧
      Line.parse (a.expand args) =
        .ok ⟨Line.closed tokens ++ (Line.last? (tokens ++ more)).toList⟩ ∧
      ((Line.last? (tokens ++ more)).isSome ↔ (Line.last? tokens).isSome ∨ args ≠ []) ∧
      (∀ s ∈ Line.last? tokens, ∀ s' ∈ Line.last? (tokens ++ more),
        s.fragments <+: s'.fragments) ∧
      ∀ {κ : Type} (inner : Reentry κ),
        inner.expandAll (Line.last? (tokens ++ more)) =
          return (← inner.expandAll (Line.last? tokens)) ++ args.filter (· ≠ "") := by
  obtain ⟨⟨more,hmore⟩,hclosed,hrest⟩ := foldl_followedBy args tokens
  have hscan := a.scan_expand args h hc he
  rw [← hmore] at hscan hclosed hrest
  refine ⟨more,hscan,?_,?_,?_,?_,?_⟩
  · rw [Line.parse,h,← Line.ofTokens_eq]
    rfl
  · rw [Line.parse,hscan,← hclosed,← Line.ofTokens_eq]
    rfl
  · rw [hmore]
    exact isSome_last?_followedBy args tokens
  · intro s hs s' hs'
    rw [Line.last?] at hs hs'
    rw [hrest] at hs'
    exact Statement.fragments_prefix (foldl_followedBy args (Line.rest tokens)).1 hs hs'
  · intro κ inner
    have hwords := inner.words_foldl_followedBy args (separator_notMem_rest tokens)
    rw [Line.last?,Line.last?,Reentry.expandAll_ofTokens?,Reentry.expandAll_ofTokens?,hrest,
      hwords]
    simp

def greeting : Alias := ⟨"hi","date; echo \"$USER\": "⟩

/-- The arguments look like a quote with a substitution, nothing, a statement and a comment. -/
theorem expand_appends_greeting :
    let tokens := [.plain "date",.separator,.plain "echo",.space,.quoted "$USER",.plain ":",.space]
    Token.scan greeting.text = .ok tokens ∧
      ∃ more, Token.scan (greeting.expand ["it's $HOME","","; rm","#"]) = .ok (tokens ++ more) ∧
        ∀ {κ : Type} (inner : Reentry κ),
          inner.expandAll (Line.last? (tokens ++ more)) =
            return (← inner.expandAll (Line.last? tokens)) ++ ["it's $HOME","; rm","#"] := by
  intro tokens
  have h : Token.scan greeting.text = .ok tokens := by decide +kernel
  have hc : (Scanner.read greeting.text).mode ≠ .comment := by decide +kernel
  have he : (Scanner.read greeting.text).mode ≠ .escape := by decide +kernel
  obtain ⟨more,hscan,-,-,-,-,hwords⟩ :=
    expand_appends greeting ["it's $HOME","","; rm","#"] h hc he
  refine ⟨h,more,hscan,fun inner => ?_⟩
  rw [hwords inner]
  rfl

end Alias
end CommandShell
