import Mathlib.Data.List.Chain
import CommandShell.Proofs.Alias.Arguments
import CommandShell.Proofs.Line.Grammar

/-! Statements as the parts of a line between separators.
A statement is made of one part and of nothing else, and only blanks at its two ends are lost. What
the scanner reads has a blank only where an argument has come before, so nothing but a blank at the
end of a part is left to be taken away. -/
namespace CommandShell
namespace Token

variable {tokens more part : List Token}

/-- `u` may follow `t`: if it is a blank, then `t` ends an argument. -/
def Admits (t u : Token) : Prop := u = space → t ≠ space ∧ t ≠ separator

def Spaced (tokens : List Token) : Prop := (separator :: tokens).IsChain Admits

theorem spaced_nil : Spaced [] := .singleton _

theorem Spaced.append (h : Spaced tokens) (hm : space ∉ more) : Spaced (tokens ++ more) := by
  have hmore : more.IsChain Admits :=
    (List.pairwise_of_forall_mem_list fun t _ u hu (he : u = space) =>
      absurd (he ▸ hu) hm).isChain
  refine List.IsChain.append h hmore fun t _ u hu he => ?_
  exact absurd (he ▸ List.mem_of_mem_head? hu) hm

theorem Spaced.spaceAfter (h : Spaced tokens) : Spaced (tokens ++ spaceAfter tokens) := by
  cases hlast : tokens.getLast? with
  | none => simpa [Token.spaceAfter,hlast] using h
  | some t =>
    have hend : (separator :: tokens).getLast? = some t := by
      rw [List.getLast?_cons,hlast,Option.getD_some]
    by_cases ht : t = space ∨ t = separator
    · rcases ht with rfl | rfl <;> simpa [Token.spaceAfter,hlast] using h
    · have hspace : Token.spaceAfter tokens = [space] := by
        cases t <;> simp_all [Token.spaceAfter]
      rw [hspace]
      refine List.IsChain.append h (.singleton _) fun u hu _ _ _ => ?_
      rw [hend] at hu
      exact Option.some.inj hu ▸ not_or.1 ht

end Token

namespace Span

theorem space_notMem_quoted (text : String) (spans : List Span) :
    Token.space ∉ quoted text spans := by
  induction spans generalizing text with
  | nil => simp [quoted]
  | cons s spans ih =>
    cases s with
    | escape c =>
      rw [quoted]
      split_ifs <;> simp [ih]
    | char c => exact ih _
    | body b inner => exact ih _

end Span

namespace Piece

theorem spaced_onto {before : List Token} (h : Token.Spaced before) (p : Piece) :
    Token.Spaced (p.onto before) := by
  cases p with
  | blank c => exact h.spaceAfter
  | comment text => exact h
  | escape c =>
    rw [onto]
    split_ifs
    · exact h
    · exact h.append (by simp)
  | double spans => exact h.append (Span.space_notMem_quoted _ _)
  | _ => exact h.append (by simp)

theorem spaced_translate (pieces : List Piece) : Token.Spaced (translate pieces) := by
  have hfold : ∀ before, Token.Spaced before → Token.Spaced (pieces.foldl onto before) := by
    induction pieces with
    | nil => exact fun _ h => h
    | cons p pieces ih => exact fun _ h => ih _ (spaced_onto h p)
  exact hfold [] Token.spaced_nil

end Piece

theorem Token.spaced_of_scan {line : String} {tokens : List Token}
    (h : scan line = .ok tokens) : Spaced tokens := by
  have hscan : scan line = (Scanner.between true []).result line.toList := rfl
  rw [hscan] at h
  obtain ⟨pieces,hp⟩ := Piece.reads_of_result line.toList h
  rw [Scanner.result_reads hp] at h
  exact Except.ok.inj h ▸ Piece.spaced_translate pieces

theorem Fragment.map_ofToken? {part : List Token} (hsep : Token.separator ∉ part) :
    part.map ofToken? = (part.filterMap ofToken?).map some := by
  induction part with
  | nil => rfl
  | cons t part ih =>
    obtain ⟨ht,hsep⟩ := not_or.1 (mt List.mem_cons.2 hsep)
    cases t <;> simp_all [ofToken?]

namespace Statement

variable {fragments : List Fragment} {part : List Token} {st : Statement}

theorem exists_trim (fragments : List Fragment) : ∃ m n,
    fragments = .replicate m .space ++ trim fragments ++ .replicate n .space := by
  have hend : fragments.rtakeWhile (· = .space) =
      .replicate (fragments.rtakeWhile (· = .space)).length .space :=
    List.eq_replicate_iff.2 ⟨rfl,fun f hf => by simpa using List.mem_rtakeWhile_imp hf⟩
  have hsplit : fragments.rdropWhile (· = .space) ++ fragments.rtakeWhile (· = .space) =
      fragments := List.rdropWhile_append_rtakeWhile
  rw [hend] at hsplit
  rw [trim_eq]
  split
  case isTrue hhead =>
    refine ⟨1,(fragments.rtakeWhile (· = .space)).length,?_⟩
    rw [List.replicate_one,List.singleton_append,List.cons_head?_tail hhead]
    exact hsplit.symm
  case isFalse => exact ⟨0,_,hsplit.symm⟩

/-- The statement has the tokens of the part in their order, all but blanks at the two ends, and so
it has the same words. -/
structure Renders (part : List Token) (st : Statement) : Prop where
  arguments : (part.filter (· ≠ .space)).map Fragment.ofToken? =
    (st.fragments.filter (· ≠ .space)).map some
  trimmed : ∃ m n, part.filterMap Fragment.ofToken? =
    .replicate m .space ++ st.fragments ++ .replicate n .space
  words : ∀ (κ : Type) (inner : Reentry κ),
    inner.expand st = inner.expand ⟨part.filterMap Fragment.ofToken?⟩

theorem renders_of_ofTokens? (hsep : Token.separator ∉ part) (h : ofTokens? part = some st) :
    Renders part st := by
  obtain ⟨-,htrim⟩ := ofTokens?_eq_some_iff.1 h
  obtain ⟨m,n,he⟩ := exists_trim (part.filterMap Fragment.ofToken?)
  rw [htrim] at he
  refine ⟨?_,⟨m,n,he⟩,fun κ inner => ?_⟩
  · have hfilter : (part.filterMap Fragment.ofToken?).filter (· ≠ .space) =
        (part.filter (· ≠ .space)).filterMap Fragment.ofToken? := by
      rw [List.filter_filterMap,List.filterMap_filter]
      congr 1
      funext t
      cases t <;> rfl
    rw [Fragment.map_ofToken? (mt List.mem_of_mem_filter hsep),← hfilter,he]
    simp
  · have hwords := inner.expandAll_ofTokens? part
    rw [h] at hwords
    refine hwords.trans ?_
    rw [Reentry.expand,map_eq_pure_bind]
    rfl

end Statement

namespace Line

variable {tokens : List Token} {parts : List (List Token)} {line : String} {l : Line}

theorem cons_intercalate (hne : parts ≠ []) :
    Token.separator :: [Token.separator].intercalate parts =
      (parts.map (Token.separator :: ·)).flatten := by
  induction parts with
  | nil => exact absurd rfl hne
  | cons p parts ih =>
    cases parts with
    | nil => simp
    | cons q parts =>
      rw [List.intercalate_cons_cons,List.map_cons,List.flatten_cons,← ih (by simp)]
      simp

/-- One statement for each part in which there is more than blanks. -/
theorem forall₂_renders (hp : ∀ p ∈ parts, Token.separator ∉ p) :
    List.Forall₂ Statement.Renders (parts.filter fun p => p.any (· ≠ .space))
      (parts.filterMap Statement.ofTokens?) := by
  induction parts with
  | nil => exact .nil
  | cons p parts ih =>
    obtain ⟨hsep,hp⟩ := List.forall_mem_cons.1 hp
    have hsome : (Statement.ofTokens? p).isSome ↔ p.any (· ≠ .space) = true := by
      rw [Statement.ofTokens?_isSome_iff]
      simp only [List.any_eq_true,decide_eq_true_eq]
      refine exists_congr fun t => and_congr_right fun ht => and_iff_left ?_
      exact fun he => hsep (he ▸ ht)
    cases h : Statement.ofTokens? p with
    | none =>
      rw [List.filterMap_cons_none h,List.filter_cons_of_neg (by simpa [h] using hsome)]
      exact ih hp
    | some st =>
      rw [List.filterMap_cons_some h,List.filter_cons_of_pos (by simpa [h] using hsome)]
      exact .cons (Statement.renders_of_ofTokens? hsep h) (ih hp)

theorem isChain_fragments {first : Token} {part : List Token} (hsep : Token.separator ∉ part)
    (h : (first :: part).IsChain Token.Admits) :
    (∀ f ∈ (part.filterMap Fragment.ofToken?).head?, f = .space →
      first ≠ .space ∧ first ≠ .separator) ∧
    (part.filterMap Fragment.ofToken?).IsChain fun f g => g = .space → f ≠ .space := by
  induction part generalizing first with
  | nil => exact ⟨by simp,.nil⟩
  | cons t part ih =>
    obtain ⟨ht,hsep⟩ := not_or.1 (mt List.mem_cons.2 hsep)
    obtain ⟨hfirst,hrest⟩ := List.isChain_cons_cons.1 h
    obtain ⟨hhead,hchain⟩ := ih hsep hrest
    obtain ⟨f,hf,hspace⟩ : ∃ f, Fragment.ofToken? t = some f ∧ (f = .space ↔ t = .space) := by
      cases t <;> simp_all [Fragment.ofToken?]
    rw [List.filterMap_cons_some hf]
    refine ⟨fun g hg he => ?_,hchain.cons fun g hg he => ?_⟩
    · obtain rfl := Option.some.inj hg
      exact hfirst (hspace.1 he)
    · exact mt hspace.1 (hhead g hg he).1

end Line

namespace Statement

/-- Blanks stand between arguments only, and one at a time. -/
structure Tidy (st : Statement) : Prop where
  nonempty : st.fragments ≠ []
  head : st.fragments.head? ≠ some .space
  last : st.fragments.getLast? ≠ some .space
  single : ¬[.space,.space] <:+: st.fragments

theorem getLast?_trim (fragments : List Fragment) :
    (trim fragments).getLast? ≠ some .space := by
  have hend : (fragments.rdropWhile (· = .space)).getLast? ≠ some .space := by
    intro h
    have hne : fragments.rdropWhile (· = .space) ≠ [] := by
      intro he
      simp [he] at h
    have hlast := List.rdropWhile_last_not _ _ hne
    rw [List.getLast?_eq_some_getLast hne] at h
    simp [Option.some.inj h] at hlast
  rw [trim_eq]
  split
  · intro h
    rw [List.getLast?_tail] at h
    split_ifs at h
    exact hend h
  · exact hend

theorem tidy_of_ofTokens? {part : List Token} {st : Statement} (hsep : Token.separator ∉ part)
    (hpart : Token.Spaced part) (h : ofTokens? part = some st) : st.Tidy := by
  obtain ⟨hne,htrim⟩ := ofTokens?_eq_some_iff.1 h
  obtain ⟨hhead,hchain⟩ := Line.isChain_fragments hsep hpart
  obtain ⟨m,n,he⟩ := (renders_of_ofTokens? hsep h).trimmed
  refine ⟨hne,fun hspace => ?_,htrim ▸ getLast?_trim _,fun htwo => ?_⟩
  -- trimming takes one blank at most from the front, but behind a separator there is none
  · have hfirst : (part.filterMap Fragment.ofToken?).head? = some .space := by
      rw [he]
      cases m with
      | zero => simp [hspace]
      | succ m => simp [List.replicate_succ]
    exact (hhead _ hfirst rfl).2 rfl
  · have hinfix : st.fragments <:+: part.filterMap Fragment.ofToken? := ⟨_,_,he.symm⟩
    have hpair : [Fragment.space,.space].IsChain fun f g => g = .space → f ≠ .space :=
      List.IsChain.infix hchain (htwo.trans hinfix)
    exact List.isChain_pair.1 hpair rfl rfl

end Statement

namespace Line

/-- The tokens of a line, between any two separators, have blanks behind arguments only. -/
theorem spaced_of_mem_splitOn {p : List Token} (h : Token.Spaced tokens)
    (hp : p ∈ tokens.splitOn .separator) : Token.Spaced p := by
  have hjoin : [Token.separator].intercalate (tokens.splitOn .separator) = tokens :=
    List.intercalate_splitOn _
  refine List.IsChain.infix h ?_
  rw [← congrArg (Token.separator :: ·) hjoin,cons_intercalate (List.splitOn_ne_nil _ _)]
  exact List.infix_of_mem_flatten (List.mem_map_of_mem hp)

/-- Cut at its separators, every sequence of tokens gives one statement for each part that has more
than blanks, in order, and these have the tokens of their parts and the same words. Where the tokens
are those of a line, no blank stands at the ends of a statement or beside another one. -/
theorem statements_render (tokens : List Token) :
    (∃ parts, [Token.separator].intercalate parts = tokens ∧
      (∀ p ∈ parts, Token.separator ∉ p) ∧
      List.Forall₂ Statement.Renders (parts.filter fun p => p.any (· ≠ .space))
        (ofTokens tokens).statements) ∧
    ∀ line, Token.scan line = .ok tokens →
      parse line = .ok (ofTokens tokens) ∧ ∀ st ∈ (ofTokens tokens).statements, st.Tidy := by
  have hparts : ∀ p ∈ tokens.splitOn .separator, Token.separator ∉ p :=
    fun p hp => Separated.notMem_of_mem_splitOn hp
  refine ⟨⟨tokens.splitOn .separator,List.intercalate_splitOn _,hparts,forall₂_renders hparts⟩,
    fun line hscan => ⟨?_,fun st hst => ?_⟩⟩
  · rw [parse,hscan]
    rfl
  · obtain ⟨p,hp,hpst⟩ := List.mem_filterMap.1 hst
    exact Statement.tidy_of_ofTokens? (hparts p hp)
      (spaced_of_mem_splitOn (Token.spaced_of_scan hscan) hp) hpst

/-- A line break behind a comment, an empty argument and an empty statement. -/
theorem statements_render_commented :
    let line := " a '' \\\n # b ;\n;; \"c\" d \t; "
    let tokens : List Token := [.plain "a",.space,.verbatim "",.space,.separator,.separator,
      .separator,.quoted "c",.space,.plain "d",.space,.separator]
    (ofTokens tokens).statements =
      [⟨[.plain "a",.space,.verbatim ""]⟩,⟨[.quoted "c",.space,.plain "d"]⟩] ∧
    Token.scan line = .ok tokens ∧ parse line = .ok (ofTokens tokens) ∧
    ∀ st ∈ (ofTokens tokens).statements, st.Tidy := by
  intro line tokens
  have hscan : Token.scan line = .ok tokens := by decide +kernel
  obtain ⟨hparse,htidy⟩ := (statements_render tokens).2 line hscan
  exact ⟨by decide,hscan,hparse,htidy⟩

end Line
end CommandShell
