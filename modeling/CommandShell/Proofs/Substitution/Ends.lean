import Mathlib.Data.List.Basic
import CommandShell.Token.Scanner

/-! What one character does to the text being collected.
Outside of bodies it sends all of the text into tokens, or goes on with the text, or leaves the
text alone. -/
namespace CommandShell

def Token.hasText : Token → Bool
  | .plain _ | .quoted _ => true
  | .verbatim _ | .space | .separator => false

namespace Scanner

variable {s s' : Scanner}

def Mode.Fresh (m : Mode) : Prop :=
  m = .start ∨ m = .bare ∨ m = .single ∨ m = .double ∨ m = .escape

structure Ends (s s' : Scanner) (new : List Token) : Prop where
  text : s'.text = ""
  mode : s'.mode.Fresh
  tokens : s'.tokens.toList = s.tokens.toList ++ new
  collected : ∀ t ∈ new, t.hasText = true → t = .plain s.text ∨ t = .quoted s.text
  nothing : (∀ t ∈ new, t.hasText = false) → s.text = ""

def flushed (s : Scanner) (token : String → Token) : List Token :=
  if s.text = "" then [] else [token s.text]

theorem text_flush (s : Scanner) (token : String → Token) : (s.flush token).text = "" := by
  unfold flush
  split_ifs with h
  · exact h
  · rfl

theorem tokens_flush (s : Scanner) (token : String → Token) :
    (s.flush token).tokens.toList = s.tokens.toList ++ s.flushed token := by
  unfold flush flushed
  split_ifs <;> simp [close]

theorem ends_flush (s : Scanner) {token : String → Token}
    (ht : token = .plain ∨ token = .quoted) {s' : Scanner} {more : List Token}
    (hm : s'.mode.Fresh) (hs : s'.text = "")
    (htokens : s'.tokens.toList = s.tokens.toList ++ (s.flushed token ++ more))
    (hmore : ∀ t ∈ more, t.hasText = false) : s.Ends s' (s.flushed token ++ more) := by
  refine ⟨hs,hm,htokens,?_,?_⟩
  · intro t hmem htext
    rcases List.mem_append.1 hmem with h | h
    · unfold flushed at h
      split_ifs at h with h0
      · cases h
      · rw [List.mem_singleton.1 h]
        rcases ht with rfl | rfl <;> simp
    · rw [hmore t h] at htext
      cases htext
  · intro hnone
    by_contra h0
    have hf := hnone (token s.text) (by simp [flushed,h0])
    rcases ht with rfl | rfl <;> cases hf

theorem text_blank (s : Scanner) : s.blank.text = s.text := by
  unfold blank
  split <;> rfl

theorem tokens_blank (s : Scanner) : ∃ more, s.blank.tokens.toList = s.tokens.toList ++ more ∧
    ∀ t ∈ more, t.hasText = false := by
  unfold blank
  split
  case h_4 => exact ⟨[.space],by simp [emit],by simp [Token.hasText]⟩
  all_goals exact ⟨[],by simp,by simp⟩

theorem unquoted_cases (s : Scanner) (c : Char) :
    (∃ new, s.Ends (s.unquoted c) new) ∨ (s.mode = .start ∧ s.unquoted c = s.goto .comment) ∨
      (c = '$' ∧ s.unquoted c = (s.keep c).goto (.dollar false)) ∨
      (c ≠ '$' ∧ s.unquoted c = (s.keep c).goto .bare) := by
  have htext := s.text_flush .plain
  have htokens := s.tokens_flush .plain
  -- the flush, perhaps with a token that holds no text
  have hends : ∀ {s'} more, s'.mode.Fresh → s'.text = (s.flush .plain).text →
      s'.tokens.toList = (s.flush .plain).tokens.toList ++ more →
      (∀ t ∈ more, t.hasText = false) → ∃ new, s.Ends s' new := by
    intro s' more hm hs ht hmore
    rw [htokens,List.append_assoc] at ht
    exact ⟨_,s.ends_flush (.inl rfl) hm (hs.trans htext) ht hmore⟩
  generalize hnext : s.unquoted c = s'
  unfold unquoted at hnext
  split_ifs at hnext with h1 h2 h3 h4 h5 h6 h7 h8 <;> subst hnext
  · obtain ⟨more,ht,hmore⟩ := (s.flush .plain).tokens_blank
    exact .inl (hends more (by simp [goto,Mode.Fresh]) (s.flush .plain).text_blank ht hmore)
  · exact .inl (hends [.separator] (by simp [goto,Mode.Fresh]) rfl (by simp [emit,goto])
      (by simp [Token.hasText]))
  · exact .inr (.inl ⟨h3.2,rfl⟩)
  · exact .inl (hends [] (by simp [goto,Mode.Fresh]) rfl (by simp [goto]) (by simp))
  · exact .inl (hends [] (by simp [goto,Mode.Fresh]) rfl (by simp [goto]) (by simp))
  · exact .inl (hends [] (by simp [goto,Mode.Fresh]) rfl (by simp [goto]) (by simp))
  · exact .inl (hends [.verbatim (String.singleton c)] (by simp [goto,Mode.Fresh]) rfl
      (by simp [emit,goto]) (by simp [Token.hasText]))
  · exact .inr (.inr (.inl ⟨h8,rfl⟩))
  · exact .inr (.inr (.inr ⟨h8,rfl⟩))

theorem quoted_cases (s : Scanner) (c : Char) :
    (∃ new, s.Ends (s.quoted c) new) ∨ (c = '\\' ∧ s.quoted c = s.goto .doubleEscape) ∨
      (c = '$' ∧ s.quoted c = (s.keep c).goto (.dollar true)) ∨
      (c ≠ '$' ∧ s.quoted c = (s.keep c).goto .double) := by
  unfold quoted
  split_ifs with h1 h2 h3
  · refine .inl ⟨[.quoted s.text],rfl,by simp [goto,Mode.Fresh],by simp [goto,close],by simp,?_⟩
    simp [Token.hasText]
  · exact .inr (.inl ⟨h2,rfl⟩)
  · exact .inr (.inr (.inl ⟨h3,rfl⟩))
  · exact .inr (.inr (.inr ⟨h3,rfl⟩))

end Scanner

end CommandShell
