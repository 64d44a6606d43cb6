import Mathlib.Data.List.DropRight
import CommandShell.Line
import CommandShell.Proofs.Alias.Reading

/-! Where the arguments of an alias go.
All statements that a separator ends stay as they are; what stands after the last separator is
what goes on. -/
namespace CommandShell
namespace Line

def closed (tokens : List Token) : List Statement :=
  (tokens.splitOn .separator).dropLast.filterMap Statement.ofTokens?

def rest (tokens : List Token) : List Token := (tokens.splitOn .separator).getLast?.getD []

def last? (tokens : List Token) : Option Statement := Statement.ofTokens? (rest tokens)

theorem ofTokens_eq (tokens : List Token) :
    ofTokens tokens = ⟨closed tokens ++ (last? tokens).toList⟩ := by
  obtain ⟨init,r,h⟩ := List.eq_nil_or_concat' (tokens.splitOn .separator) |>.resolve_left
    (List.splitOn_ne_nil _ _)
  simp only [ofTokens,closed,last?,rest,h,List.filterMap_append,List.dropLast_concat,
    List.getLast?_concat,Option.getD_some]
  cases hs : Statement.ofTokens? r <;> simp [hs]

theorem splitOn_append (tokens : List Token) {more : List Token} (h : Token.separator ∉ more) :
    ∃ init r, tokens.splitOn .separator = init ++ [r] ∧
      (tokens ++ more).splitOn .separator = init ++ [r ++ more] := by
  induction tokens with
  | nil => exact ⟨[],[],List.splitOn_nil _,List.splitOn_eq_singleton h⟩
  | cons t tokens ih =>
    obtain ⟨init,r,h1,h2⟩ := ih
    rw [List.cons_append,List.splitOn_cons_eq_if_modifyHead,List.splitOn_cons_eq_if_modifyHead,
      h1,h2]
    split
    · exact ⟨[] :: init,r,rfl,rfl⟩
    · cases init with
      | nil => exact ⟨[],t :: r,rfl,rfl⟩
      | cons s init => exact ⟨(t :: s) :: init,r,rfl,rfl⟩

theorem closed_append {tokens more : List Token} (h : Token.separator ∉ more) :
    closed (tokens ++ more) = closed tokens := by
  obtain ⟨init,r,h1,h2⟩ := splitOn_append tokens h
  rw [closed,closed,h1,h2,List.dropLast_concat,List.dropLast_concat]

theorem rest_append {tokens more : List Token} (h : Token.separator ∉ more) :
    rest (tokens ++ more) = rest tokens ++ more := by
  obtain ⟨init,r,h1,h2⟩ := splitOn_append tokens h
  simp [rest,h1,h2]

theorem getLast?_rest (tokens : List Token) :
    rest tokens = [] ∧ (tokens = [] ∨ tokens.getLast? = some .separator) ∨
      rest tokens ≠ [] ∧ tokens.getLast? = (rest tokens).getLast? := by
  induction tokens using List.reverseRecOn with
  | nil => exact .inl ⟨rfl,.inl rfl⟩
  | append_singleton tokens t _ =>
    by_cases ht : t = .separator
    · subst ht
      refine .inl ⟨?_,.inr (by simp)⟩
      rw [rest,List.splitOn_append_cons_self,List.splitOn_nil,List.getLast?_concat]
      rfl
    · refine .inr ⟨?_,?_⟩ <;> rw [rest_append (by simpa using Ne.symm ht)] <;> simp

theorem spaceAfter_rest (tokens : List Token) :
    Token.spaceAfter (rest tokens) = Token.spaceAfter tokens := by
  rcases getLast?_rest tokens with ⟨hr,rfl | hl⟩ | ⟨-,hl⟩
  · rfl
  · simp [Token.spaceAfter,hr,hl]
  · simp only [Token.spaceAfter,hl]

end Line

namespace Alias

theorem separator_notMem_pieces (text : String) (cs : List Char) :
    Token.separator ∉ pieces text cs := by
  induction cs generalizing text with
  | nil => simp [pieces]
  | cons c cs ih =>
    rw [pieces]
    split
    · simp [ih]
    · exact ih _

theorem separator_notMem_argTokens (arg : String) : Token.separator ∉ argTokens arg := by
  unfold argTokens
  split
  · exact separator_notMem_pieces _ _
  · simp

theorem separator_notMem_spaceAfter (tokens : List Token) :
    Token.separator ∉ Token.spaceAfter tokens := by
  rcases Token.spaceAfter_eq tokens with h | h <;> simp [h]

theorem argTokens_ne_nil (arg : String) : ∃ t ∈ argTokens arg, t ≠ .space := by
  have hpieces : ∀ text cs, ∃ t ∈ pieces text cs, t ≠ .space := by
    intro text cs
    induction cs generalizing text with
    | nil => exact ⟨_,List.mem_singleton_self _,by simp⟩
    | cons c cs ih =>
      rw [pieces]
      split
      · exact ⟨_,List.mem_cons_self,by simp⟩
      · exact ih _
  unfold argTokens
  split
  · exact hpieces _ _
  · exact ⟨_,List.mem_singleton_self _,by simp⟩

theorem followedBy_eq (tokens : List Token) (arg : String) :
    ∃ more, Token.separator ∉ more ∧ followedBy tokens arg = tokens ++ more ∧
      followedBy (Line.rest tokens) arg = Line.rest tokens ++ more := by
  refine ⟨Token.spaceAfter tokens ++ argTokens arg,?_,?_,?_⟩
  · rw [List.mem_append,not_or]
    exact ⟨separator_notMem_spaceAfter _,separator_notMem_argTokens _⟩
  · rw [followedBy,List.append_assoc]
  · rw [followedBy,Line.spaceAfter_rest,List.append_assoc]

theorem foldl_followedBy (args : List String) (tokens : List Token) :
    tokens <+: args.foldl followedBy tokens ∧
      Line.closed (args.foldl followedBy tokens) = Line.closed tokens ∧
      Line.rest (args.foldl followedBy tokens) = args.foldl followedBy (Line.rest tokens) := by
  induction args generalizing tokens with
  | nil => exact ⟨List.prefix_rfl,rfl,rfl⟩
  | cons arg args ih =>
    obtain ⟨more,hsep,ht,hr⟩ := followedBy_eq tokens arg
    obtain ⟨h1,h2,h3⟩ := ih (followedBy tokens arg)
    have hrest : Line.rest (followedBy tokens arg) = followedBy (Line.rest tokens) arg := by
      rw [ht,Line.rest_append hsep,hr]
    refine ⟨List.IsPrefix.trans ⟨more,ht.symm⟩ h1,?_,?_⟩
    · rw [List.foldl_cons,h2,ht,Line.closed_append hsep]
    · rw [List.foldl_cons,h3,hrest]
      rfl

end Alias

namespace Statement

variable {fragments more : List Fragment}

theorem trim_eq (fragments : List Fragment) :
    trim fragments =
      if (fragments.rdropWhile (· = .space)).head? = some .space
      then (fragments.rdropWhile (· = .space)).tail
      else fragments.rdropWhile (· = .space) := rfl

theorem rdropWhile_append_prefix (fragments more : List Fragment) :
    fragments.rdropWhile (· = .space) <+: (fragments ++ more).rdropWhile (· = .space) := by
  induction more using List.reverseRecOn with
  | nil => simp
  | append_singleton more f ih =>
    rw [← List.append_assoc,List.rdropWhile_concat]
    split
    · exact ih
    · rw [List.append_assoc]
      exact (List.rdropWhile_prefix _ _).trans (List.prefix_append _ _)

theorem trim_append_prefix (fragments more : List Fragment) :
    trim fragments <+: trim (fragments ++ more) := by
  obtain ⟨s,hs⟩ := rdropWhile_append_prefix fragments more
  rw [trim_eq,trim_eq,← hs]
  cases fragments.rdropWhile (· = .space) with
  | nil => simp
  | cons f rest =>
    rw [List.cons_append,List.head?_cons,List.tail_cons,List.head?_cons,List.tail_cons]
    by_cases hf : some f = some Fragment.space
    · rw [if_pos hf,if_pos hf]
      exact List.prefix_append rest s
    · rw [if_neg hf,if_neg hf]
      exact List.prefix_append (f :: rest) s

theorem mem_of_mem_trim {f : Fragment} (h : f ∈ trim fragments) : f ∈ fragments := by
  have hkept := List.rdropWhile_prefix (· = Fragment.space) fragments
  rw [trim_eq] at h
  split at h
  · exact hkept.mem (List.mem_of_mem_tail h)
  · exact hkept.mem h

theorem trim_eq_nil_iff : trim fragments = [] ↔ ∀ f ∈ fragments, f = .space := by
  have hend : trim fragments = [] ↔ fragments.rdropWhile (· = .space) = [] := by
    rw [trim_eq]
    split
    case isTrue h =>
      -- what is left ends in no blank, so it is more than the blank at its head
      induction fragments using List.reverseRecOn with
      | nil => simp at h
      | append_singleton init f ih =>
        rw [List.rdropWhile_concat] at h ⊢
        split_ifs at h ⊢ with hf
        · exact ih h
        · cases init with
          | nil => simp_all
          | cons => simp
    case isFalse => rfl
  rw [hend,List.rdropWhile_eq_nil_iff]
  simp

theorem ofTokens?_eq_some_iff {tokens : List Token} {s : Statement} :
    ofTokens? tokens = some s ↔
      s.fragments ≠ [] ∧ trim (tokens.filterMap Fragment.ofToken?) = s.fragments := by
  rcases s with ⟨fragments⟩
  unfold ofTokens?
  cases trim (tokens.filterMap Fragment.ofToken?) with
  | nil => simp [eq_comm]
  | cons f rest =>
    simp only [Option.some.injEq,Statement.mk.injEq,iff_and_self]
    rintro rfl
    exact List.cons_ne_nil f rest

/-- A statement that goes on keeps its fragments. -/
theorem fragments_prefix {tokens longer : List Token} {s s' : Statement} (h : tokens <+: longer)
    (hs : ofTokens? tokens = some s) (hs' : ofTokens? longer = some s') :
    s.fragments <+: s'.fragments := by
  obtain ⟨more,rfl⟩ := h
  rw [← (ofTokens?_eq_some_iff.1 hs).2,← (ofTokens?_eq_some_iff.1 hs').2,List.filterMap_append]
  exact trim_append_prefix _ _

theorem ofTokens?_isSome_iff {tokens : List Token} :
    (ofTokens? tokens).isSome ↔ ∃ t ∈ tokens, t ≠ .space ∧ t ≠ .separator := by
  have h : (ofTokens? tokens).isSome ↔ trim (tokens.filterMap Fragment.ofToken?) ≠ [] := by
    rw [Option.isSome_iff_exists]
    simp only [ofTokens?_eq_some_iff]
    exact ⟨fun ⟨s,hne,hs⟩ => hs ▸ hne,fun hne => ⟨⟨_⟩,hne,rfl⟩⟩
  rw [h,ne_eq,trim_eq_nil_iff]
  simp only [List.mem_filterMap,forall_exists_index,and_imp,not_forall]
  constructor
  · rintro ⟨f,t,ht,hf,hne⟩
    refine ⟨t,ht,?_,?_⟩ <;> rintro rfl
    · exact hne (Option.some.inj hf).symm
    · cases hf
  · rintro ⟨t,ht,hs,hsep⟩
    cases t with
    | plain text => exact ⟨.plain text,_,ht,rfl,by simp⟩
    | quoted text => exact ⟨.quoted text,_,ht,rfl,by simp⟩
    | verbatim text => exact ⟨.verbatim text,_,ht,rfl,by simp⟩
    | space => exact absurd rfl hs
    | separator => exact absurd rfl hsep

end Statement
end CommandShell
