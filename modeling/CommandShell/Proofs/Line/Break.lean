import CommandShell.Proofs.Alias.Statements
import CommandShell.Proofs.Substitution.Ends

/-! What the scanner keeps across a line break.
A line break outside quotes, substitutions and escapes is a separator, and what comes after it is
read as if it came first. -/
namespace CommandShell

/-- A line that can be scanned and does not end on a backslash that escapes nothing. -/
structure Line.Complete (line : String) : Prop where
  scans : ∃ tokens, Token.scan line = .ok tokens
  whole : (Scanner.read line).mode ≠ .escape

instance (line : String) : Decidable (Line.Complete line) :=
  decidable_of_iff ((Token.scan line).isOk = true ∧ (Scanner.read line).mode ≠ .escape) <| by
    constructor
    · rintro ⟨hok,hw⟩
      cases h : Token.scan line with
      | ok tokens => exact ⟨⟨tokens,h⟩,hw⟩
      | error e => simp [h,Except.isOk,Except.toBool] at hok
    · rintro ⟨⟨tokens,ht⟩,hw⟩
      exact ⟨by rw [ht]; rfl,hw⟩

namespace Scanner

variable {s : Scanner}

def behind (before : Array Token) (s : Scanner) : Scanner :=
  { s with tokens := before ++ s.tokens }

section

variable {before : Array Token}

@[simp] theorem mode_behind (s : Scanner) : (s.behind before).mode = s.mode := rfl

@[simp] theorem behind_goto (s : Scanner) (m : Mode) :
    (s.behind before).goto m = (s.goto m).behind before := rfl

@[simp] theorem behind_keep (s : Scanner) (c : Char) :
    (s.behind before).keep c = (s.keep c).behind before := rfl

@[simp] theorem behind_emit (s : Scanner) (t : Token) :
    (s.behind before).emit t = (s.emit t).behind before := by
  simp [behind,emit]

@[simp] theorem behind_close (s : Scanner) (token : String → Token) :
    (s.behind before).close token = (s.close token).behind before := by
  simp [behind,close]

@[simp] theorem behind_flush (s : Scanner) (token : String → Token) :
    (s.behind before).flush token = (s.flush token).behind before := by
  unfold flush
  rw [behind_close]
  split_ifs with h h' h'
  · rfl
  · exact absurd h h'
  · exact absurd h' h
  · rfl

theorem behind_blank (hb : before.back? = some .separator) (s : Scanner) :
    (s.behind before).blank = s.blank.behind before := by
  have hback : (s.behind before).tokens.back? = s.tokens.back?.or (some .separator) := by
    simp [behind,Array.back?_append,hb]
  simp only [blank,hback]
  cases hs : s.tokens.back? with
  | none => rfl
  | some t => cases t <;> simp

theorem behind_unquoted (hb : before.back? = some .separator) (s : Scanner) (c : Char) :
    (s.behind before).unquoted c = (s.unquoted c).behind before := by
  simp only [unquoted,behind_flush,behind_blank hb,behind_emit,behind_goto,behind_keep,mode_behind]
  split_ifs <;> rfl

theorem behind_quoted (s : Scanner) (c : Char) :
    (s.behind before).quoted c = (s.quoted c).behind before := by
  simp only [quoted,behind_close,behind_goto,behind_keep]
  split_ifs <;> rfl

theorem behind_step (hb : before.back? = some .separator) (s : Scanner) (c : Char) :
    (s.behind before).step c = (s.step c).behind before := by
  simp only [step,mode_behind,behind_unquoted hb,behind_quoted,behind_emit,behind_goto,
    behind_keep,behind_close,behind_flush]
  cases s.mode with
  | start | bare | double => rfl
  | comment | single | escape | doubleEscape => split_ifs <;> rfl
  | dollar inside =>
    cases Bracket.ofChar? c with
    | none => cases inside <;> rfl
    | some b => rfl
  | body inside b => cases hc : b.step c <;> simp only [hc]

theorem behind_foldl (hb : before.back? = some .separator) (cs : List Char) (s : Scanner) :
    cs.foldl step (s.behind before) = (cs.foldl step s).behind before := by
  induction cs generalizing s with
  | nil => rfl
  | cons c cs ih => rw [List.foldl_cons,behind_step hb,ih,List.foldl_cons]

theorem behind_finish (s : Scanner) :
    (s.behind before).finish = s.finish.map (before.toList ++ ·) := by
  have htokens : ∀ u : Scanner,
      (u.behind before).tokens.toList = before.toList ++ u.tokens.toList :=
    fun u => by simp [behind]
  simp only [finish,mode_behind,behind_flush,behind_emit,htokens]
  cases s.mode with
  | dollar inside => cases inside <;> rfl
  | start | bare | comment | single | double | escape | doubleEscape | body => rfl

end

def Settled (s : Scanner) : Prop := s.mode = .start ∨ s.mode = .comment → s.text = ""

theorem settled_of_mode (h : s.mode ≠ .start) (h' : s.mode ≠ .comment) : s.Settled :=
  fun hm => (hm.elim h h').elim

theorem settled_unquoted (h : s.Settled) (c : Char) : (s.unquoted c).Settled := by
  unfold unquoted
  split_ifs with _ _ hc
  case pos => exact fun _ => (text_blank _).trans (text_flush _ _)
  case pos => exact fun _ => text_flush _ _
  case pos => exact fun _ => h (.inl hc.2)
  all_goals exact settled_of_mode (by simp [goto]) (by simp [goto])

theorem settled_quoted (s : Scanner) (c : Char) : (s.quoted c).Settled := by
  unfold quoted
  split_ifs <;> exact settled_of_mode (by simp [goto]) (by simp [goto])

theorem settled_step (h : s.Settled) (c : Char) : (s.step c).Settled := by
  have hkept : ∀ {u : Scanner} {m : Mode}, m ≠ .start → m ≠ .comment → (u.goto m).Settled :=
    fun h h' => settled_of_mode h h'
  unfold step
  cases hm : s.mode with
  | start | bare => exact settled_unquoted h c
  | comment =>
    simp only
    split_ifs
    · exact fun _ => h (.inr hm)
    · exact h
  | single =>
    simp only
    split_ifs
    · exact hkept (by simp) (by simp)
    · exact settled_of_mode (by simp [keep,hm]) (by simp [keep,hm])
  | double => exact settled_quoted s c
  | escape => simp only; split_ifs <;> exact hkept (by simp) (by simp)
  | doubleEscape =>
    simp only
    split_ifs
    · exact hkept (by simp) (by simp)
    · exact settled_quoted _ c
  | dollar inside =>
    simp only
    split
    · exact hkept (by simp) (by simp)
    · split_ifs
      · exact settled_quoted s c
      · exact settled_unquoted (hkept (by simp) (by simp)) c
  | body inside b =>
    simp only
    split
    · exact hkept (by simp) (by simp)
    · split_ifs <;> exact hkept (by simp) (by simp)

theorem settled_read (line : String) : (read line).Settled :=
  List.foldlRecOn _ step (fun _ => rfl) fun _ h c _ => settled_step h c

theorem done_goto (s : Scanner) (m : Mode) : (s.goto m).done = s.done := by
  by_cases ht : s.text = "" <;> simp [done,flush,ht,goto,close]

theorem separate_eq (s : Scanner) : ((s.flush .plain).emit .separator).goto .start =
    initial.behind (s.done ++ [Token.separator]).toArray := by
  rw [flush_eq]
  simp [emit,goto,behind,initial]

theorem step_lineBreak {tokens : List Token} (hs : s.Settled) (h : s.finish = .ok tokens)
    (he : s.mode ≠ .escape) :
    s.step '\n' = initial.behind (tokens ++ [Token.separator]).toArray := by
  have hun : ∀ u : Scanner, u.unquoted '\n' = ((u.flush .plain).emit .separator).goto .start :=
    fun _ => rfl
  by_cases hc : s.mode = .comment
  · have htokens : s.tokens.toList = tokens := by
      simpa [finish,hc,flush,hs (.inr hc)] using h
    obtain ⟨mode,text,array⟩ := s
    obtain rfl : mode = .comment := hc
    obtain rfl : text = "" := hs (.inr rfl)
    subst htokens
    simp [step,behind,initial,emit,goto,← Array.toList_inj]
  · obtain ⟨hr,rfl⟩ := ready_of_finish h hc he
    rcases hr with hm | hm | hm
    · rw [step,hm,hun,separate_eq]
    · rw [step,hm,hun,separate_eq]
    · have hb : Bracket.ofChar? '\n' = none := by decide
      rw [step,hm]
      simp only [hb,Bool.false_eq_true,if_false]
      rw [hun,separate_eq,done_goto]

end Scanner

namespace Line

variable {a b : String}

/-- What comes after a complete line and a line break is scanned as if it came first. -/
theorem Complete.scan_append (ha : Complete a) {before after : List Token}
    (hbefore : Token.scan a = .ok before) (hafter : Token.scan b = .ok after) :
    Token.scan (a ++ "\n" ++ b) = .ok (before ++ .separator :: after) := by
  have hlist : (a ++ "\n" ++ b).toList = a.toList ++ '\n' :: b.toList := by simp
  have hlast : (before ++ [Token.separator]).toArray.back? = some .separator := by simp
  have hbreak : (Scanner.read a).step '\n' =
      Scanner.initial.behind (before ++ [Token.separator]).toArray :=
    Scanner.step_lineBreak (Scanner.settled_read a) hbefore ha.whole
  rw [Token.scan] at hafter
  rw [Token.scan,hlist,List.foldl_append,List.foldl_cons]
  change (b.toList.foldl Scanner.step ((Scanner.read a).step '\n')).finish = _
  rw [hbreak,Scanner.behind_foldl hlast,Scanner.behind_finish,hafter]
  simp [Except.map]

theorem ofTokens_append (before after : List Token) :
    ofTokens (before ++ .separator :: after) =
      ⟨(ofTokens before).statements ++ (ofTokens after).statements⟩ := by
  simp only [ofTokens,List.splitOn_append_cons_self,List.filterMap_append]

theorem Complete.parse_append (ha : Complete a) {after : Line} (hb : parse b = .ok after) :
    ∃ before, parse a = .ok before ∧
      parse (a ++ "\n" ++ b) = .ok ⟨before.statements ++ after.statements⟩ := by
  obtain ⟨first,hfirst⟩ := ha.scans
  unfold parse at hb ⊢
  cases hsecond : Token.scan b with
  | error e => simp [hsecond,Except.map] at hb
  | ok second =>
    obtain rfl : ofTokens second = after := by simpa [hsecond,Except.map] using hb
    refine ⟨ofTokens first,by simp [hfirst,Except.map],?_⟩
    rw [ha.scan_append hfirst hsecond,← ofTokens_append]
    rfl

end Line
end CommandShell
