import Mathlib.Data.Nat.Init
import CommandShell.Proofs.Substitution.Body

/-! Texts between matching brackets.
Where a body ends is described by what the text looks like. The reader of bodies comes out of such
a text as it went in, and where there is none it never comes to an end. -/
namespace CommandShell

/-- A text in which every double quote is behind a backslash, and every backslash before something.
-/
inductive Hidden : List Char → Prop
  | nil : Hidden []
  | char {c rest} (hq : c ≠ '"') (hb : c ≠ '\\') (h : Hidden rest) : Hidden (c :: rest)
  | escaped {rest} (c : Char) (h : Hidden rest) : Hidden ('\\' :: c :: rest)

namespace Bracket

def marks (b : Bracket) (c : Char) : Bool :=
  c = b.opening || c = b.closing || (b.quotes && (c = '\\' || c = '\'' || c = '"'))

/-- A text whose brackets match. Between parentheses those do not count that are quoted or follow a
backslash. -/
inductive Encloses (b : Bracket) : List Char → Prop
  | nil : Encloses b []
  | char {c rest} (hc : b.marks c = false) (h : Encloses b rest) : Encloses b (c :: rest)
  | nested {inner rest} (hi : Encloses b inner) (h : Encloses b rest) :
      Encloses b (b.opening :: (inner ++ b.closing :: rest))
  | escaped {rest} (hb : b.quotes = true) (c : Char) (h : Encloses b rest) :
      Encloses b ('\\' :: c :: rest)
  | single {text rest} (hb : b.quotes = true) (ht : '\'' ∉ text) (h : Encloses b rest) :
      Encloses b ('\'' :: (text ++ '\'' :: rest))
  | double {text rest} (hb : b.quotes = true) (ht : Hidden text) (h : Encloses b rest) :
      Encloses b ('"' :: (text ++ '"' :: rest))

end Bracket

namespace Body

variable {b : Bracket} {c : Char} {inner text s : List Char} {k k' k'' : Body}

/-- The text leads the reader from one state to another, and closes nothing on the way. -/
def Passes (k k' : Body) (text : List Char) : Prop := text.foldlM step k = some k'

theorem Passes.nil (k : Body) : Passes k k [] := rfl

theorem Passes.append (h : Passes k k' text) (hs : Passes k' k'' s) : Passes k k'' (text ++ s) := by
  rw [Passes,List.foldlM_append,h]
  exact hs

theorem Passes.cons (h : k.step c = some k') (hs : Passes k' k'' s) : Passes k k'' (c :: s) := by
  rw [Passes,List.foldlM_cons,h]
  exact hs

def reading (b : Bracket) (d : Nat) : Body := ⟨b,d + 1,none,false⟩

def quoting (b : Bracket) (d : Nat) (q : Char) : Body := ⟨b,d + 1,some q,false⟩

theorem step_unmarked (hc : b.marks c = false) (d : Nat) :
    (reading b d).step c = some (reading b d) := by
  cases b <;> simp_all [step,reading,Bracket.marks,Bracket.quotes]

theorem step_opening (b : Bracket) (d : Nat) :
    (reading b d).step b.opening = some (reading b (d + 1)) := by
  cases b <;> simp [step,reading,Bracket.quotes,Bracket.opening]

theorem step_closing (b : Bracket) (d : Nat) :
    (reading b (d + 1)).step b.closing = some (reading b d) := by
  cases b <;> simp [step,reading,Bracket.quotes,Bracket.opening,Bracket.closing]

theorem step_last (b : Bracket) : (reading b 0).step b.closing = none := by
  cases b <;> simp [step,reading,Bracket.quotes,Bracket.opening,Bracket.closing]

theorem step_quote (hb : b.quotes = true) (d : Nat) {q : Char} (hq : q = '\'' ∨ q = '"') :
    (reading b d).step q = some (quoting b d q) := by
  rcases hq with rfl | rfl <;> simp [step,reading,quoting,hb]

theorem step_unquote (b : Bracket) (d : Nat) (q : Char) :
    (quoting b d q).step q = some (reading b d) := by
  simp [step,reading,quoting]

theorem step_hidden (hq : c ≠ '"') (hb : c ≠ '\\') (b : Bracket) (d : Nat) :
    (quoting b d '"').step c = some (quoting b d '"') := by
  simp [step,quoting,hq,hb]

theorem passes_escaped (hb : b.quotes = true) (d : Nat) (c : Char) :
    Passes (reading b d) (reading b d) ['\\',c] := by
  simp [Passes,step,reading,hb]

theorem passes_quoting_escaped (b : Bracket) (d : Nat) (c : Char) :
    Passes (quoting b d '"') (quoting b d '"') ['\\',c] := by
  simp [Passes,step,quoting]

theorem passes_single (ht : '\'' ∉ text) (b : Bracket) (d : Nat) :
    Passes (quoting b d '\'') (quoting b d '\'') text := by
  induction text with
  | nil => exact .nil _
  | cons c text ih =>
    obtain ⟨hc,ht⟩ := not_or.1 (mt List.mem_cons.2 ht)
    have hs : (quoting b d '\'').step c = some (quoting b d '\'') := by
      simp [step,quoting,Ne.symm hc]
    exact .cons hs (ih ht)

theorem passes_hidden (ht : Hidden text) (b : Bracket) (d : Nat) :
    Passes (quoting b d '"') (quoting b d '"') text := by
  induction ht with
  | nil => exact .nil _
  | char hq hb _ ih => exact .cons (step_hidden hq hb b d) ih
  | escaped c _ ih => exact (passes_quoting_escaped b d c).append ih

/-- The reader comes out of a text whose brackets match as it went in. -/
theorem passes_encloses (h : b.Encloses inner) (d : Nat) :
    Passes (reading b d) (reading b d) inner := by
  induction h generalizing d with
  | nil => exact .nil _
  | char hc _ ih => exact .cons (step_unmarked hc d) (ih d)
  | nested _ _ ihi ih =>
    exact .cons (step_opening b d) ((ihi (d + 1)).append (.cons (step_closing b d) (ih d)))
  | escaped hb c _ ih => exact (passes_escaped hb d c).append (ih d)
  | single hb ht _ ih =>
    exact .cons (step_quote hb d (.inl rfl))
      ((passes_single ht b d).append (.cons (step_unquote b d _) (ih d)))
  | double hb ht _ ih =>
    exact .cons (step_quote hb d (.inr rfl))
      ((passes_hidden ht b d).append (.cons (step_unquote b d _) (ih d)))

/-- Nothing in the text closes the body. -/
def Stays (k : Body) (s : List Char) : Prop := ∃ k', Passes k k' s

theorem stays_nil (k : Body) : k.Stays [] := ⟨k,.nil k⟩

theorem Passes.stays (h : Passes k k' text) (hs : k'.Stays s) : k.Stays (text ++ s) := by
  obtain ⟨k'',hk⟩ := hs
  exact ⟨k'',h.append hk⟩

theorem stays_cons (h : k.step c = some k') (hs : k'.Stays s) : k.Stays (c :: s) :=
  (Passes.cons h (.nil k')).stays hs

/-- A double quote is closed, or nothing closes the body around it. -/
theorem hidden_or_stays (s : List Char) : (∃ text rest, s = text ++ '"' :: rest ∧ Hidden text) ∨
    ∀ b d, (quoting b d '"').Stays s := by
  match s with
  | [] => exact .inr fun b d => stays_nil _
  | c :: s =>
    by_cases hq : c = '"'
    · exact .inl ⟨[],s,by rw [hq]; rfl,.nil⟩
    by_cases hb : c = '\\'
    · subst hb
      match s with
      | [] => exact .inr fun b d => ⟨{ quoting b d '"' with escaped := true },rfl⟩
      | e :: s =>
        rcases hidden_or_stays s with ⟨text,rest,rfl,ht⟩ | hs
        · exact .inl ⟨'\\' :: e :: text,rest,rfl,.escaped e ht⟩
        · exact .inr fun b d => (passes_quoting_escaped b d e).stays (hs b d)
    · rcases hidden_or_stays s with ⟨text,rest,rfl,ht⟩ | hs
      · exact .inl ⟨c :: text,rest,rfl,.char hq hb ht⟩
      · exact .inr fun b d => stays_cons (step_hidden hq hb b d) (hs b d)

def Begins (b : Bracket) (s : List Char) : Prop :=
  ∃ inner rest, s = inner ++ b.closing :: rest ∧ b.Encloses inner

/-- A body is closed behind a text whose brackets match, or not at all. -/
theorem begins_or_stays (b : Bracket) (s : List Char) :
    Begins b s ∨ ∀ d, (reading b d).Stays s := by
  induction hn : s.length using Nat.strong_induction_on generalizing s with
  | _ n ih =>
    -- the reader comes out of `text` as it went in, so all depends on what is behind
    have hbehind : ∀ (text rest : List Char), text ++ rest = s → text ≠ [] →
        (∀ d, Passes (reading b d) (reading b d) text) →
        (∀ inner, b.Encloses inner → b.Encloses (text ++ inner)) →
        Begins b s ∨ ∀ d, (reading b d).Stays s := by
      rintro text rest rfl hne hpass henc
      have hlt : rest.length < n := by
        have hpos := List.length_pos_iff.2 hne
        rw [List.length_append] at hn
        omega
      rcases ih _ hlt rest rfl with ⟨inner,after,rfl,hi⟩ | hs
      · exact .inl ⟨text ++ inner,after,by simp,henc inner hi⟩
      · exact .inr fun d => (hpass d).stays (hs d)
    cases s with
    | nil => exact .inr fun d => stays_nil _
    | cons c s =>
      by_cases hclose : c = b.closing
      · exact .inl ⟨[],s,by rw [hclose]; rfl,.nil⟩
      by_cases hopen : c = b.opening
      · subst hopen
        rcases ih _ (by simp [← hn]) s rfl with ⟨inner,rest,rfl,hi⟩ | hs
        · refine hbehind (b.opening :: (inner ++ [b.closing])) rest (by simp) (by simp)
            (passes_encloses (.nested hi .nil)) fun after ha => ?_
          simpa using Bracket.Encloses.nested hi ha
        · exact .inr fun d => stays_cons (step_opening b d) (hs (d + 1))
      by_cases hmark : b.marks c = false
      · exact hbehind [c] s rfl (by simp) (fun d => .cons (step_unmarked hmark d) (.nil _))
          fun after ha => .char hmark ha
      have hb : b.quotes = true ∧ (c = '\\' ∨ c = '\'' ∨ c = '"') := by
        simpa [Bracket.marks,hclose,hopen,← imp_iff_not_or,or_iff_not_imp_left] using hmark
      obtain ⟨hb,rfl | rfl | rfl⟩ := hb
      · cases s with
        | nil =>
          have hstep : ∀ d, (reading b d).step '\\' = some { reading b d with escaped := true } :=
            fun d => by simp [step,reading,hb]
          exact .inr fun d => stays_cons (hstep d) (stays_nil _)
        | cons e s =>
          exact hbehind ['\\',e] s rfl (by simp) (fun d => passes_escaped hb d e)
            fun after ha => .escaped hb e ha
      · by_cases hm : '\'' ∈ s
        · obtain ⟨text,rest,rfl,ht⟩ := List.eq_append_cons_of_mem hm
          refine hbehind ('\'' :: (text ++ ['\''])) rest (by simp) (by simp)
            (passes_encloses (.single hb ht .nil)) fun after ha => ?_
          simpa using Bracket.Encloses.single hb ht ha
        · exact .inr fun d => stays_cons (step_quote hb d (.inl rfl)) ⟨_,passes_single hm b d⟩
      · rcases hidden_or_stays s with ⟨text,rest,rfl,ht⟩ | hs
        · refine hbehind ('"' :: (text ++ ['"'])) rest (by simp) (by simp)
            (passes_encloses (.double hb ht .nil)) fun after ha => ?_
          simpa using Bracket.Encloses.double hb ht ha
        · exact .inr fun d => stays_cons (step_quote hb d (.inr rfl)) (hs b d)

end Body
end CommandShell
