import CommandShell.Proofs.Alias.Statements
import CommandShell.Proofs.Separated
import CommandShell.Proofs.Substitution.Nesting

/-! A line that is substituted is shorter than the line in which it stands.
No text that the scanner collects is longer than what it has read, and a body is shorter than the
text that it is cut out of. -/
namespace CommandShell

def Token.extent : Token → Nat
  | .plain text | .quoted text => text.length
  | .verbatim _ | .space | .separator => 0

namespace Scanner

variable {s : Scanner} {n : Nat}

/-- No text is longer than `n` characters, neither a collected one nor that of a token. -/
structure Spans (s : Scanner) (n : Nat) : Prop where
  text : s.text.length ≤ n
  tokens : ∀ t ∈ s.tokens.toList, t.extent ≤ n

theorem Spans.mono {m : Nat} (h : s.Spans n) (hm : n ≤ m) : s.Spans m :=
  ⟨h.text.trans hm,fun t ht => (h.tokens t ht).trans hm⟩

theorem Spans.goto (h : s.Spans n) (m : Mode) : (s.goto m).Spans n := ⟨h.text,h.tokens⟩

theorem Spans.keep (h : s.Spans n) (c : Char) : (s.keep c).Spans (n + 1) := by
  refine ⟨?_,(h.mono n.le_succ).tokens⟩
  rw [Scanner.keep,String.length_push]
  exact Nat.succ_le_succ h.text

theorem Spans.emit (h : s.Spans n) {t : Token} (ht : t.extent ≤ n) : (s.emit t).Spans n := by
  refine ⟨h.text,fun t' ht' => ?_⟩
  simp only [Scanner.emit,Array.toList_push,List.mem_append,List.mem_singleton] at ht'
  obtain ht' | rfl := ht'
  · exact h.tokens t' ht'
  · exact ht

theorem Spans.close (h : s.Spans n) {token : String → Token}
    (ht : (token s.text).extent ≤ s.text.length) : (s.close token).Spans n :=
  ⟨n.zero_le,(h.emit (ht.trans h.text)).tokens⟩

theorem Spans.flush (h : s.Spans n) {token : String → Token}
    (ht : (token s.text).extent ≤ s.text.length) : (s.flush token).Spans n := by
  unfold Scanner.flush
  split
  · exact h
  · exact h.close ht

/-- After `n` characters no text is longer than that. A backslash that is held back is not counted
in the text. -/
structure Read (s : Scanner) (n : Nat) : Prop extends s.Spans n where
  held : s.mode = .doubleEscape → s.text.length < n

theorem read_goto (h : s.Spans n) {m : Mode} (hm : m ≠ .doubleEscape) : (s.goto m).Read n :=
  ⟨h.goto m,fun he => absurd he hm⟩

theorem extent_of_not_hasText {t : Token} (h : t.hasText = false) : t.extent = 0 := by
  cases t <;> first | rfl | cases h

theorem Ends.read {s' : Scanner} {new : List Token} (he : s.Ends s' new) (h : s.Spans n) :
    s'.Read n := by
  refine ⟨⟨?_,fun t ht => ?_⟩,fun hm => ?_⟩
  · rw [he.text]
    exact Nat.zero_le _
  · rw [he.tokens,List.mem_append] at ht
    obtain ht | ht := ht
    · exact h.tokens t ht
    cases htext : t.hasText with
    | true => obtain rfl | rfl := he.collected t ht htext <;> exact h.text
    | false =>
      rw [extent_of_not_hasText htext]
      exact n.zero_le
  · have hfresh := he.mode
    simp [Mode.Fresh,hm] at hfresh

theorem read_unquoted (h : s.Spans n) (c : Char) : (s.unquoted c).Read (n + 1) := by
  have hlonger := h.mono n.le_succ
  obtain ⟨new,he⟩ | ⟨-,he⟩ | ⟨-,he⟩ | ⟨-,he⟩ := s.unquoted_cases c
  · exact he.read hlonger
  · rw [he]
    exact read_goto hlonger (by simp)
  · rw [he]
    exact read_goto (h.keep c) (by simp)
  · rw [he]
    exact read_goto (h.keep c) (by simp)

theorem read_quoted (h : s.Spans n) (c : Char) : (s.quoted c).Read (n + 1) := by
  have hlonger := h.mono n.le_succ
  obtain ⟨new,he⟩ | ⟨-,he⟩ | ⟨-,he⟩ | ⟨-,he⟩ := s.quoted_cases c
  · exact he.read hlonger
  · rw [he]
    exact ⟨hlonger.goto _,fun _ => Nat.lt_succ_of_le h.text⟩
  · rw [he]
    exact read_goto (h.keep c) (by simp)
  · rw [he]
    exact read_goto (h.keep c) (by simp)

theorem Read.step (h : s.Read n) (c : Char) : (s.step c).Read (n + 1) := by
  have hlonger := h.toSpans.mono n.le_succ
  unfold Scanner.step
  cases hmode : s.mode with
  | start | bare => exact read_unquoted h.toSpans c
  | comment =>
    dsimp only
    split
    · exact read_goto (hlonger.emit (Nat.zero_le _)) (by simp)
    · exact ⟨hlonger,by simp [hmode]⟩
  | single =>
    dsimp only
    split
    · exact read_goto (hlonger.close (Nat.zero_le _)) (by simp)
    · exact ⟨h.toSpans.keep c,by simp [keep,hmode]⟩
  | double => exact read_quoted h.toSpans c
  | escape =>
    dsimp only
    split
    · exact read_goto hlonger (by simp)
    · exact read_goto (hlonger.emit (Nat.zero_le _)) (by simp)
  | doubleEscape =>
    dsimp only
    split
    · exact read_goto ((hlonger.flush le_rfl).emit (Nat.zero_le _)) (by simp)
    · have hheld : (s.keep '\\').Spans n := by
        refine ⟨?_,h.tokens⟩
        rw [keep,String.length_push]
        exact h.held hmode
      exact read_quoted hheld c
  | dollar inside =>
    dsimp only
    split
    · exact read_goto (h.toSpans.keep c) (by simp)
    · split
      · exact read_quoted h.toSpans c
      · exact read_unquoted (h.toSpans.goto _) c
  | body inside b =>
    dsimp only
    split
    · exact read_goto (h.toSpans.keep c) (by simp)
    · exact read_goto (h.toSpans.keep c) (by cases inside <;> simp)

theorem Read.foldl (h : s.Read n) (cs : List Char) :
    (cs.foldl Scanner.step s).Read (n + cs.length) := by
  induction cs generalizing s n with
  | nil => exact h
  | cons c cs ih =>
    rw [List.length_cons,Nat.add_comm cs.length,← Nat.add_assoc]
    exact ih (h.step c)

theorem Spans.finish (h : s.Spans n) {tokens : List Token} (hf : s.finish = .ok tokens) :
    ∀ t ∈ tokens, t.extent ≤ n := by
  unfold Scanner.finish at hf
  split at hf
  case h_6 => exact Except.ok.inj hf ▸ (h.emit (Nat.zero_le _)).tokens
  case h_1 | h_2 | h_3 | h_4 | h_5 => cases hf
  all_goals exact Except.ok.inj hf ▸ (h.flush le_rfl).tokens

end Scanner

theorem Token.extent_le_of_scan {line : String} {tokens : List Token}
    (h : scan line = .ok tokens) : ∀ t ∈ tokens, t.extent ≤ line.length := by
  have hinitial : Scanner.initial.Read 0 := by
    refine ⟨⟨Nat.zero_le _,?_⟩,?_⟩ <;> simp [Scanner.initial]
  have hend := (hinitial.foldl line.toList).toSpans.finish h
  rwa [Nat.zero_add,String.length_toList] at hend

namespace Word

theorem mem_withLiteral {l text : String} {parts : List Part}
    (h : .command l ∈ withLiteral text parts) : .command l ∈ parts := by
  unfold withLiteral at h
  split at h
  · exact h
  · simpa using h

theorem length_lt_of_ofBody {l : String} {b : Bracket} {inner tail after : List Char}
    (hl : .command l = Part.ofBody b inner) (h : body? b 1 none tail = some (inner,after)) :
    l.length < tail.length := by
  rw [body?_eq_run?] at h
  obtain ⟨-,c,rfl,-⟩ := Body.foldlM_of_run? h
  cases b with
  | paren =>
    cases hl
    rw [String.length_ofList,List.length_append,List.length_cons]
    omega
  | brace => cases hl

theorem length_lt_of_mem_cut {l text : String} {s : List Char} (h : .command l ∈ cut text s) :
    l.length < s.length := by
  fun_induction cut text s with
  | case1 text => cases mem_withLiteral h
  | case2 text c rest hc ih => exact (ih h).trans (Nat.lt_succ_self _)
  | case3 text c hc => cases mem_withLiteral h
  | case4 text c hc d tail b hb hnone => cases mem_withLiteral h
  | case5 text c hc d tail b hb inner after hsome hlt ih =>
    refine Nat.lt_of_lt_of_le ?_ (Nat.le_add_right tail.length 2)
    obtain h | h := List.mem_cons.1 (mem_withLiteral h)
    · exact length_lt_of_ofBody h hsome
    · exact (ih h).trans hlt
  | case6 text c hc d tail hd hs hle ih =>
    obtain h | h := List.mem_cons.1 (mem_withLiteral h)
    · cases h
    · exact ((ih h).trans_le hle).trans (Nat.lt_succ_self _)
  | case7 text c hc d tail hd hs ih => exact (ih h).trans (Nat.lt_succ_self _)

theorem length_lt_of_mem_split {l text : String} (h : .command l ∈ split text) :
    l.length < text.length := by
  rw [← String.length_toList (s := text)]
  exact length_lt_of_mem_cut h

end Word

namespace Line

theorem exists_token {tokens : List Token} {st : Statement}
    (hst : st ∈ (ofTokens tokens).statements) {f : Fragment} (hf : f ∈ st.fragments) :
    ∃ t ∈ tokens, Fragment.ofToken? t = some f := by
  obtain ⟨group,hgroup,hsome⟩ := List.mem_filterMap.1 hst
  rw [← (Statement.ofTokens?_eq_some_iff.1 hsome).2] at hf
  obtain ⟨t,ht,htoken⟩ := List.mem_filterMap.1 (Statement.mem_of_mem_trim hf)
  exact ⟨t,Separated.mem_of_mem_splitOn hgroup ht,htoken⟩

theorem extent_of_ofToken? {t : Token} {f : Fragment} {text : String}
    (ht : Fragment.ofToken? t = some f) (hf : f = .plain text ∨ f = .quoted text) :
    t.extent = text.length := by
  obtain rfl | rfl := hf <;> cases t <;> cases ht <;> rfl

theorem length_lt_of_substituted {l body text : String} {p : Line} (hp : parse l = .ok p)
    {st : Statement} (hst : st ∈ p.statements) {f : Fragment} (hf : f ∈ st.fragments)
    (htext : f = .plain text ∨ f = .quoted text) (hbody : .command body ∈ Word.split text) :
    body.length < l.length := by
  unfold parse at hp
  cases hscan : Token.scan l with
  | error e =>
    rw [hscan] at hp
    cases hp
  | ok tokens =>
    rw [hscan] at hp
    obtain rfl := Except.ok.inj hp
    obtain ⟨t,ht,htoken⟩ := exists_token hst hf
    calc body.length < text.length := Word.length_lt_of_mem_split hbody
      _ = t.extent := (extent_of_ofToken? htoken htext).symm
      _ ≤ l.length := Token.extent_le_of_scan hscan t ht

end Line
end CommandShell
