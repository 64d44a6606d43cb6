import CommandShell.Proofs.Alias.Reading
import CommandShell.Proofs.Substitution.Nesting

/-! Lines that break off.
A line is refused only for what is open at its end, so there is always something to be typed behind
it: the quotation mark of an open quote, or what the reader of a body still waits for, with the
bracket of that body and the double quotes around it. -/
namespace CommandShell
namespace Body

variable {k : Body}

/-- What comes before the last bracket: a character for the backslash to escape, the quotation mark
that is open, and the brackets that were opened inside. -/
def awaited (k : Body) : List Char :=
  (if k.escaped then [k.quote.getD k.bracket.closing] else []) ++ k.quote.toList ++
    List.replicate (k.depth - 1) k.bracket.closing

theorem passes_replicate (b : Bracket) (d : Nat) :
    Passes (reading b d) (reading b 0) (List.replicate d b.closing) := by
  induction d with
  | zero => exact .nil _
  | succ d ih => exact .cons (step_closing b d) ih

theorem passes_awaited (hk : 0 < k.depth) : Passes k (reading k.bracket 0) k.awaited := by
  obtain ⟨bracket,depth,quote,escaped⟩ := k
  obtain ⟨d,rfl⟩ := Nat.exists_eq_add_of_lt hk
  have hescape : Passes ⟨bracket,0 + d + 1,quote,escaped⟩ ⟨bracket,d + 1,quote,false⟩
      (if escaped then [quote.getD bracket.closing] else []) := by
    cases escaped <;> simp [Passes,step]
  have hquote : Passes ⟨bracket,d + 1,quote,false⟩ (reading bracket d) quote.toList := by
    cases quote with
    | none => exact .nil _
    | some q => exact .cons (step_unquote bracket d q) (.nil _)
  simpa [awaited] using (hescape.append hquote).append (passes_replicate bracket d)

end Body

namespace Scanner

variable {s : Scanner} {c : Char} {i : Bool} {k : Body} {cs : List Char}

theorem dollar_of_unquoted (h : (s.unquoted c).mode = .dollar i) : c = '$' ∧ i = false := by
  rw [mode_unquoted] at h
  split_ifs at h with _ _ _ _ _ _ _ hc
  exact ⟨hc,(Mode.dollar.inj h).symm⟩

theorem dollar_of_quoted (h : (s.quoted c).mode = .dollar i) : c = '$' ∧ i = true := by
  rw [mode_quoted] at h
  split_ifs at h with _ _ hc
  exact ⟨hc,(Mode.dollar.inj h).symm⟩

/-- Only a dollar sign leads to where a substitution may begin, and this is between double quotes if
the line that ends before it lacks a quotation mark. -/
theorem dollar_of_step (h : (s.step c).mode = .dollar i) :
    c = '$' ∧ (i = true ↔ s.finish = .error .quote) := by
  cases hm : s.mode with
  | start | bare =>
    simp only [step,hm] at h
    obtain ⟨hc,rfl⟩ := dollar_of_unquoted h
    exact ⟨hc,by simp [finish,hm]⟩
  | double =>
    simp only [step,hm] at h
    obtain ⟨hc,rfl⟩ := dollar_of_quoted h
    exact ⟨hc,by simp [finish,hm]⟩
  | dollar j =>
    cases hb : Bracket.ofChar? c with
    | some b => rw [mode_opened hm hb] at h; cases h
    | none =>
      simp only [step,hm,hb] at h
      cases j with
      | true =>
        obtain ⟨hc,rfl⟩ := dollar_of_quoted h
        exact ⟨hc,by simp [finish,hm]⟩
      | false =>
        obtain ⟨hc,rfl⟩ := dollar_of_unquoted h
        exact ⟨hc,by simp [finish,hm]⟩
  | doubleEscape => rw [mode_doubleEscape hm] at h; cases h
  | comment | single | escape =>
    simp only [step,hm] at h
    split_ifs at h <;> simp [goto,keep,hm] at h
  | body j b =>
    cases hb : b.step c with
    | some b' => rw [mode_body hm hb] at h; cases h
    | none =>
      rw [mode_body_closed hm hb] at h
      split_ifs at h

theorem exists_dollar (h : (cs.foldl step initial).mode = .dollar i) :
    ∃ before, cs = before ++ ['$'] ∧ (i = true ↔ (before.foldl step initial).finish =
      .error .quote) := by
  cases cs using List.reverseRecOn with
  | nil => cases h
  | append_singleton before c =>
    rw [List.foldl_append] at h
    obtain ⟨rfl,hi⟩ := dollar_of_step h
    exact ⟨before,rfl,hi⟩

theorem exists_body (h : (cs.foldl step initial).mode = .body i k) :
    ∃ before opened, cs = before ++ '$' :: k.bracket.opening :: opened ∧
      (i = true ↔ (before.foldl step initial).finish = .error .quote) ∧
      Body.Passes (.opened k.bracket) k opened := by
  induction cs using List.reverseRecOn generalizing k with
  | nil => cases h
  | append_singleton cs c ih =>
    rw [List.foldl_append] at h
    rcases (cs.foldl step initial).body_cases c with ⟨j,b,hm⟩ | ⟨j,b,hm,hc⟩ | ⟨hb,hd⟩
    · cases hb : b.step c with
      | none =>
        have hclosed := (mode_body_closed hm hb).symm.trans h
        split_ifs at hclosed
      | some b' =>
        obtain ⟨rfl,rfl⟩ := Mode.body.inj ((mode_body hm hb).symm.trans h)
        obtain ⟨before,opened,rfl,hi,hpass⟩ := ih hm
        rw [Body.bracket_step hb]
        exact ⟨before,opened ++ [c],by simp,hi,hpass.append (.cons hb (.nil _))⟩
    · obtain ⟨rfl,rfl⟩ := Mode.body.inj ((mode_opened hm hc).symm.trans h)
      obtain ⟨before,rfl,hi⟩ := exists_dollar hm
      exact ⟨before,[],by simp [Body.opened,Bracket.eq_opening_of_ofChar? hc],hi,.nil _⟩
    · exact absurd h (not_body_step hb hd i k)

theorem open_of_error {e : Unfinished} (h : s.finish = .error e) :
    e = .quote ∧ (s.mode = .single ∨ s.mode = .double ∨ s.mode = .doubleEscape ∨
      s.mode = .dollar true) ∨ ∃ i k, s.mode = .body i k ∧ e = k.bracket.unfinished := by
  unfold finish at h
  split at h <;> cases h
  case h_5 i k hm => exact .inr ⟨i,k,hm,rfl⟩
  all_goals exact .inl ⟨rfl,by simp [*]⟩

theorem exists_finish_of_bare (h : s.mode = .bare) : ∃ tokens, s.finish = .ok tokens :=
  ⟨_,finish_of_ready (.inr (.inl h))⟩

theorem exists_closing_quotes (h : s.mode = .single ∨ s.mode = .double ∨ s.mode = .doubleEscape ∨
    s.mode = .dollar true) : ∃ q n, (q = '\'' ∨ q = '"') ∧ 0 < n ∧
      ((List.replicate n q).foldl step s).mode = .bare := by
  rcases h with hm | hm | hm | hm
  · exact ⟨'\'',1,.inl rfl,Nat.one_pos,by simp [step,hm,goto]⟩
  · exact ⟨'"',1,.inr rfl,Nat.one_pos,by simp [step,hm,mode_quoted]⟩
  · refine ⟨'"',2,.inr rfl,Nat.two_pos,?_⟩
    have hdouble : (s.step '"').mode = .double := mode_doubleEscape hm
    simp only [List.replicate,List.foldl_cons,List.foldl_nil]
    generalize s.step '"' = u at hdouble
    simp [step,hdouble,mode_quoted]
  · exact ⟨'"',1,.inr rfl,Nat.one_pos,by
      simp [step,hm,mode_quoted,Bracket.ofChar?,Bracket.opening]⟩

theorem mode_closing_body (hm : s.mode = .body i k) (hk : 0 < k.depth) :
    ((k.awaited ++ k.bracket.closing :: if i then ['"'] else []).foldl step s).mode = .bare := by
  have hread := foldl_body (i := i) (Body.passes_awaited hk) s.text s.tokens
  obtain ⟨mode,text,tokens⟩ := s
  obtain rfl : mode = .body i k := hm
  rw [List.foldl_append,hread,List.foldl_cons]
  have hlast := mode_body_closed (s := ⟨.body i (.reading k.bracket 0),
    text ++ String.ofList k.awaited,tokens⟩) rfl (Body.step_last k.bracket)
  cases i with
  | false => exact hlast
  | true =>
    generalize step _ k.bracket.closing = u at hlast
    simp [step,show u.mode = .double from hlast,mode_quoted]

end Scanner

/-- What completes a line that was broken off. -/
inductive Unfinished.Completed (line : List Char) : Unfinished → List Char → Prop
  /-- The quotation mark, or two of them where a backslash escapes the first. -/
  | quote {q n} (hq : q = '\'' ∨ q = '"') (hn : 0 < n) : Completed line .quote (.replicate n q)
  /-- A body was begun, and `k` is where its reader stands at the end. With what is awaited there
  its brackets match, so that its last bracket closes it; and double quotes that were open before
  it are closed behind it. -/
  | body {before opened : List Char} {k : Body} {inside : Bool}
      (hline : line = before ++ '$' :: k.bracket.opening :: opened)
      (hinside : inside = true ↔ Token.scan (String.ofList before) = .error .quote)
      (hopen : Body.Passes (.opened k.bracket) k opened)
      (hmatch : k.bracket.Encloses (opened ++ k.awaited)) :
      Completed line k.bracket.unfinished
        (k.awaited ++ k.bracket.closing :: if inside then ['"'] else [])

/-- Every line that is refused is completed by what its error asks for: quotation marks where a
quote is open, and the end of the body where a substitution is. So no line is refused for what it
contains. -/
theorem Token.scan_completed (line : String) :
    (∀ e, scan line = .error e → ∃ suffix, e.Completed line.toList suffix ∧
      ∃ tokens, scan (line ++ String.ofList suffix) = .ok tokens) ∧
    ∃ suffix tokens, scan (line ++ suffix) = .ok tokens := by
  have hscan : ∀ suffix, scan (line ++ String.ofList suffix) =
      (suffix.foldl Scanner.step (Scanner.read line)).finish := by
    intro suffix
    rw [scan,String.toList_append,String.toList_ofList,List.foldl_append]
    rfl
  have herror : ∀ e, scan line = .error e → ∃ suffix, e.Completed line.toList suffix ∧
      ∃ tokens, scan (line ++ String.ofList suffix) = .ok tokens := by
    intro e he
    rcases Scanner.open_of_error he with ⟨rfl,hm⟩ | ⟨i,k,hm,rfl⟩
    · obtain ⟨q,n,hq,hn,hend⟩ := Scanner.exists_closing_quotes hm
      exact ⟨_,.quote hq hn,hscan _ ▸ Scanner.exists_finish_of_bare hend⟩
    · obtain ⟨before,opened,hline,hi,hopen⟩ := Scanner.exists_body hm
      have hk : 0 < k.depth := Body.depth_pos_of_foldlM hopen Nat.one_pos
      have hclose : Body.Closes k.bracket (opened ++ k.awaited) :=
        ⟨_,hopen.append (Body.passes_awaited hk),Body.step_last _⟩
      have hinside : i = true ↔ scan (String.ofList before) = .error .quote := by
        rw [hi,scan,String.toList_ofList]
      exact ⟨_,.body hline hinside hopen (Body.closes_iff_encloses.1 hclose),
        hscan _ ▸ Scanner.exists_finish_of_bare (Scanner.mode_closing_body hm hk)⟩
  refine ⟨herror,?_⟩
  cases h : scan line with
  | ok tokens => exact ⟨"",tokens,by simpa using h⟩
  | error e =>
    obtain ⟨suffix,-,tokens,ht⟩ := herror e h
    exact ⟨_,tokens,ht⟩

def Unfinished.broken : String := "x \"$(f \"\\"

theorem Token.scan_completed_broken :
    scan Unfinished.broken = .error .command ∧
      ∃ suffix, Unfinished.command.Completed Unfinished.broken.toList suffix ∧
        ∃ tokens, scan (Unfinished.broken ++ String.ofList suffix) = .ok tokens := by
  have hbroken : scan Unfinished.broken = .error .command := by decide
  exact ⟨hbroken,(scan_completed Unfinished.broken).1 _ hbroken⟩

end CommandShell
