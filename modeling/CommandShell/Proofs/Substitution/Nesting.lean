import Mathlib.Data.List.Infix
import CommandShell.Proofs.Substitution.Ends
import CommandShell.Proofs.Substitution.Whole

/-! Lines within substitutions.
The reader of bodies has one quotation mark and one count of brackets for everything that it comes
by, so it does not tell the quotes of a line from those inside the substitutions of that line. A
line keeps together between brackets where all of its substitutions leave the reader as it was. -/
namespace CommandShell

/-- A substitution in a line, and whether double quotes are open around it. -/
structure Substitution where
  inside : Bool
  bracket : Bracket
  inner : List Char
  deriving DecidableEq

namespace Body

def within (inside : Bool) (n : Nat) : Body :=
  ⟨.paren,n + 1,if inside then some '"' else none,false⟩

variable {b k : Body} {c : Char}

theorem step_eq_none_iff : b.step c = none ↔
    b.escaped = false ∧ b.quote = none ∧ c = b.bracket.closing ∧ b.depth ≤ 1 := by
  obtain ⟨bracket,depth,quote,escaped⟩ := b
  cases bracket <;> simp only [step,Bracket.quotes,Bracket.opening,Bracket.closing] <;> grind

theorem depth_pos_of_step (h : b.step c = some k) (hb : 0 < b.depth) : 0 < k.depth := by
  unfold step at h
  grind

theorem depth_pos_of_foldlM {cs : List Char} (h : cs.foldlM step b = some k) (hb : 0 < b.depth) :
    0 < k.depth := by
  induction cs generalizing b with
  | nil =>
    obtain rfl := Option.some.inj h
    exact hb
  | cons c cs ih =>
    obtain ⟨b',hb',h⟩ := Option.bind_eq_some_iff.1 h
    exact ih h (depth_pos_of_step hb' hb)

/-- With more brackets open around it the reader does the same. -/
theorem step_add (h : b.step c = some k) (n : Nat) :
    ({ b with depth := b.depth + n } : Body).step c = some { k with depth := k.depth + n } := by
  obtain ⟨bracket,depth,quote,escaped⟩ := b
  cases escaped with
  | true =>
    obtain rfl := Option.some.inj h
    rfl
  | false =>
    cases quote with
    | some q =>
      simp only [step,Bool.false_eq_true,if_false] at h ⊢
      split_ifs at h ⊢ <;> obtain rfl := Option.some.inj h <;> rfl
    | none =>
      simp only [step,Bool.false_eq_true,if_false] at h ⊢
      split_ifs at h with h1 h2 h3 h4 h5
      · rw [if_pos h1,← Option.some.inj h]
      · rw [if_neg h1,if_pos h2,← Option.some.inj h]
      · rw [if_neg h1,if_neg h2,if_pos h3,← Option.some.inj h,Nat.add_right_comm]
      · have hlt : ¬depth + n ≤ 1 := by omega
        have hdepth : depth + n - 1 = depth - 1 + n := by omega
        rw [if_neg h1,if_neg h2,if_neg h3,if_pos h4,if_neg hlt,← Option.some.inj h,hdepth]
      · rw [if_neg h1,if_neg h2,if_neg h3,if_neg h4,← Option.some.inj h]

theorem foldlM_add {cs : List Char} (h : cs.foldlM step b = some k) (n : Nat) :
    cs.foldlM step { b with depth := b.depth + n } = some { k with depth := k.depth + n } := by
  induction cs generalizing b with
  | nil =>
    obtain rfl := Option.some.inj h
    rfl
  | cons c cs ih =>
    obtain ⟨b',hb',h⟩ := Option.bind_eq_some_iff.1 h
    rw [List.foldlM_cons,step_add hb' n]
    exact ih h

end Body

namespace Substitution

variable {x : Substitution}

def body (x : Substitution) : List Char :=
  x.bracket.opening :: (x.inner ++ [x.bracket.closing])

/-- The reader of bodies comes out of the substitution as it went in. -/
def Neutral (x : Substitution) : Prop :=
  x.body.foldlM Body.step (.within x.inside 0) = some (.within x.inside 0)

instance (x : Substitution) : Decidable x.Neutral :=
  inferInstanceAs (Decidable (_ = _))

theorem Neutral.foldlM (h : x.Neutral) (n : Nat) :
    x.body.foldlM Body.step (.within x.inside n) = some (.within x.inside n) := by
  have hadd := Body.foldlM_add h n
  simpa [Body.within,Nat.add_comm] using hadd

/-- A command outside quotes is read between parentheses as it is read by itself. -/
theorem neutral_of_closes {inner : List Char} (h : Body.Closes .paren inner) :
    Neutral ⟨false,.paren,inner⟩ := by
  obtain ⟨k,hk,hclose⟩ := h
  obtain ⟨hescaped,hquote,-,hle⟩ := Body.step_eq_none_iff.1 hclose
  have hpos := Body.depth_pos_of_foldlM hk Nat.zero_lt_one
  have hbracket : k.bracket = .paren := Body.bracket_foldlM hk
  have hinner := Body.foldlM_add hk 1
  have hk1 : ({ k with depth := k.depth + 1 } : Body) = .within false 1 := by
    obtain ⟨bracket,depth,quote,escaped⟩ := k
    obtain rfl : depth = 1 := Nat.le_antisymm hle hpos
    simp_all [Body.within]
  rw [hk1] at hinner
  have hread : inner.foldlM Body.step (.within false 1) = some (.within false 1) := hinner
  change (inner ++ [')']).foldlM Body.step (.within false 1) = some (.within false 0)
  rw [List.foldlM_append,hread]
  rfl

end Substitution

def countParen (n : Nat) (c : Char) : Option Nat :=
  if c = '(' then some (n + 1)
  else if c = ')' then (if n = 0 then none else some (n - 1))
  else some n

namespace Scanner

/-- The next character is neither quoted nor escaped nor part of a substitution. -/
def isOutside (s : Scanner) (c : Char) : Bool :=
  match s.mode with
  | .start | .bare => true
  | .dollar false => (Bracket.ofChar? c).isNone
  | _ => false

def outside (s : Scanner) : List Char → List Char
  | [] => []
  | c :: cs => if s.isOutside c then c :: (s.step c).outside cs else (s.step c).outside cs

def gather (s : Scanner) (inner : List Char) (c : Char) : List Char :=
  match s.mode,(s.step c).mode with
  | .body _ _,.body _ _ => inner ++ [c]
  | _,_ => []

def closed? (s : Scanner) (inner : List Char) (c : Char) : Option Substitution :=
  match s.mode with
  | .body inside b => if b.step c = none then some ⟨inside,b.bracket,inner⟩ else none
  | _ => none

def substitutions (s : Scanner) (inner : List Char) : List Char → List Substitution
  | [] => []
  | c :: cs => (s.closed? inner c).toList ++ (s.step c).substitutions (s.gather inner c) cs

/-- Where the reader of bodies stands with `n` parentheses open in the line; while a substitution
is open, where it stood before that. -/
def Mode.flat (m : Mode) (n : Nat) : Body :=
  match m with
  | .start | .bare | .comment => .within false n
  | .single => ⟨.paren,n + 1,some '\'',false⟩
  | .double => .within true n
  | .escape => ⟨.paren,n + 1,none,true⟩
  | .doubleEscape => ⟨.paren,n + 1,some '"',true⟩
  | .dollar inside | .body inside _ => .within inside n

def pending (s : Scanner) (inner : List Char) : List Char :=
  match s.mode with
  | .body _ b => b.bracket.opening :: inner
  | _ => []

variable {s : Scanner} {c : Char} {n n' : Nat} {inner : List Char}

theorem mode_unquoted (s : Scanner) (c : Char) : (s.unquoted c).mode =
    if isBlank c then .start
    else if isSeparator c then .start
    else if c = '#' ∧ s.mode = .start then .comment
    else if c = '\'' then .single
    else if c = '"' then .double
    else if c = '\\' then .escape
    else if isOperator c then .bare
    else if c = '$' then .dollar false
    else .bare := by
  simp only [unquoted,goto,apply_ite mode]

theorem mode_quoted (s : Scanner) (c : Char) : (s.quoted c).mode =
    if c = '"' then .bare
    else if c = '\\' then .doubleEscape
    else if c = '$' then .dollar true
    else .double := by
  simp only [quoted,goto,apply_ite mode]

theorem Mode.Fresh.ne_body {m : Mode} (h : m.Fresh) (i : Bool) (b : Body) : m ≠ .body i b := by
  rintro rfl
  simp [Fresh] at h

theorem unquoted_ne_body (s : Scanner) (c : Char) (i : Bool) (b : Body) :
    (s.unquoted c).mode ≠ .body i b := by
  rcases s.unquoted_cases c with ⟨new,he⟩ | ⟨-,he⟩ | ⟨-,he⟩ | ⟨-,he⟩
  · exact he.mode.ne_body i b
  all_goals simp [he,goto]

theorem quoted_ne_body (s : Scanner) (c : Char) (i : Bool) (b : Body) :
    (s.quoted c).mode ≠ .body i b := by
  rcases s.quoted_cases c with ⟨new,he⟩ | ⟨-,he⟩ | ⟨-,he⟩ | ⟨-,he⟩
  · exact he.mode.ne_body i b
  all_goals simp [he,goto]

/-- Outside quotes the reader of bodies follows the scanner and counts its parentheses. -/
theorem flat_unquoted (s : Scanner) (hn : countParen n c = some n') :
    (Body.within false n).step c = some ((s.unquoted c).mode.flat n') := by
  have hstep : (Body.within false n).step c =
      if c = '\\' then some ⟨.paren,n + 1,none,true⟩
      else if c = '\'' ∨ c = '"' then some ⟨.paren,n + 1,some c,false⟩
      else (countParen n c).map (Body.within false) := by
    simp only [Body.within,Body.step,Bracket.quotes,Bracket.opening,Bracket.closing,countParen]
    grind [Body.within]
  rw [hstep,mode_unquoted,hn]
  unfold countParen at hn
  by_cases h1 : c = '\\'
  · subst h1
    simp [isBlank,isSeparator,Mode.flat] at hn ⊢
    exact hn
  by_cases h2 : c = '\'' ∨ c = '"'
  · rcases h2 with rfl | rfl <;> simp_all [isBlank,isSeparator,Mode.flat,Body.within]
  · rw [not_or] at h2
    simp only [h1,h2,if_false,or_self,Option.map_some]
    split_ifs <;> rfl

theorem flat_quoted (s : Scanner) (c : Char) (n : Nat) :
    (Body.within true n).step c = some ((s.quoted c).mode.flat n) := by
  rw [mode_quoted]
  by_cases h1 : c = '"'
  · subst h1
    rfl
  by_cases h2 : c = '\\'
  · subst h2
    rfl
  · have hstep : (Body.within true n).step c = some (.within true n) := by
      simp [Body.step,Body.within,h1,h2]
    rw [hstep,if_neg h1,if_neg h2]
    split_ifs <;> rfl

theorem mode_doubleEscape (hm : s.mode = .doubleEscape) : (s.step c).mode = .double := by
  simp only [step,hm]
  split_ifs with he
  · rfl
  · simp_all [mode_quoted,isEscapable]

theorem pending_eq_nil (hb : ∀ i b, s.mode ≠ .body i b) : s.pending inner = [] := by
  unfold pending
  split
  · exact absurd ‹_› (hb _ _)
  · rfl

theorem gather_eq_nil (hb : ∀ i b, s.mode ≠ .body i b) : s.gather inner c = [] := by
  unfold gather
  split
  · exact absurd ‹_› (hb _ _)
  · rfl

section Body

variable {i : Bool} {b b' : Body} (hm : s.mode = .body i b)
include hm

theorem mode_body (hb : b.step c = some b') : (s.step c).mode = .body i b' := by
  simp [step,hm,hb,goto]

theorem mode_body_closed (hb : b.step c = none) :
    (s.step c).mode = if i then .double else .bare := by
  simp [step,hm,hb,goto]

theorem flat_body (n : Nat) : s.mode.flat n = .within i n := by
  rw [hm]
  rfl

theorem pending_body : s.pending inner = b.bracket.opening :: inner := by
  simp only [pending,hm]

end Body

def Gathers (s : Scanner) (inner : List Char) : Prop :=
  ∀ i b, s.mode = .body i b → inner.foldlM Body.step (.opened b.bracket) = some b

section Outside

variable (hb : ∀ i b, s.mode ≠ .body i b) (hd : ∀ i, s.mode = .dollar i → Bracket.ofChar? c = none)
include hb hd

/-- As long as no substitution is open, the reader of bodies follows the scanner. -/
theorem flat_step (hc : s.mode ≠ .comment)
    (hn : (if s.isOutside c then countParen n c else some n) = some n') :
    (s.mode.flat n).step c = some ((s.step c).mode.flat n') := by
  have hkeep : s.isOutside c = false → n = n' := fun h => by simpa [h] using hn
  cases hm : s.mode with
  | start | bare =>
    simp only [isOutside,hm,if_true] at hn
    simp only [Mode.flat,step,hm]
    exact flat_unquoted s hn
  | comment => exact absurd hm hc
  | single =>
    obtain rfl := hkeep (by simp [isOutside,hm])
    simp only [step,hm]
    split_ifs with h <;> simp [Mode.flat,Body.step,Body.within,goto,close,keep,hm,h]
  | double =>
    obtain rfl := hkeep (by simp [isOutside,hm])
    simp only [Mode.flat,step,hm]
    exact flat_quoted s c n
  | escape =>
    obtain rfl := hkeep (by simp [isOutside,hm])
    simp only [step,hm]
    split_ifs with h <;> simp [Mode.flat,Body.step,Body.within,goto]
  | doubleEscape =>
    obtain rfl := hkeep (by simp [isOutside,hm])
    rw [mode_doubleEscape hm]
    rfl
  | dollar i =>
    have hnone := hd i hm
    cases i with
    | true =>
      obtain rfl := hkeep (by simp [isOutside,hm])
      simp only [Mode.flat,step,hm,hnone,if_true]
      exact flat_quoted s c n
    | false =>
      simp only [isOutside,hm,hnone,Option.isNone_none,if_true] at hn
      simp only [Mode.flat,step,hm,hnone,Bool.false_eq_true,if_false]
      exact flat_unquoted _ hn
  | body i b => exact absurd hm (hb i b)

theorem not_body_step (i : Bool) (b : Body) : (s.step c).mode ≠ .body i b := by
  cases hm : s.mode with
  | doubleEscape => simp [mode_doubleEscape hm]
  | dollar j =>
    simp only [step,hm,hd j hm]
    split_ifs
    · exact quoted_ne_body s c i b
    · exact unquoted_ne_body _ c i b
  | body j b => exact absurd hm (hb j b)
  | start | bare =>
    simp only [step,hm]
    exact unquoted_ne_body s c i b
  | double =>
    simp only [step,hm]
    exact quoted_ne_body s c i b
  | comment | single | escape =>
    simp only [step,hm]
    split_ifs <;> simp [goto,keep,hm]

end Outside

theorem body_cases (s : Scanner) (c : Char) :
    (∃ i b, s.mode = .body i b) ∨ (∃ i b, s.mode = .dollar i ∧ Bracket.ofChar? c = some b) ∨
      (∀ i b, s.mode ≠ .body i b) ∧ ∀ i, s.mode = .dollar i → Bracket.ofChar? c = none := by
  cases hm : s.mode with
  | body i b => exact .inl ⟨i,b,rfl⟩
  | dollar i =>
    cases hc : Bracket.ofChar? c with
    | some b => exact .inr (.inl ⟨i,b,rfl,rfl⟩)
    | none => exact .inr (.inr (by simp))
  | _ => exact .inr (.inr (by simp))

theorem mode_opened {i : Bool} {b : Bracket} (hm : s.mode = .dollar i)
    (hc : Bracket.ofChar? c = some b) : (s.step c).mode = .body i (.opened b) := by
  simp [step,hm,hc,goto]

theorem Gathers.step (h : s.Gathers inner) (c : Char) :
    (s.step c).Gathers (s.gather inner c) := by
  intro i b' hm'
  rcases s.body_cases c with ⟨j,b,hm⟩ | ⟨j,b,hm,hc⟩ | ⟨hb,hd⟩
  · cases hstep : b.step c with
    | none =>
      rw [mode_body_closed hm hstep] at hm'
      cases j <;> cases hm'
    | some k =>
      rw [mode_body hm hstep] at hm'
      obtain ⟨-,rfl⟩ := Mode.body.inj hm'
      have hgather : s.gather inner c = inner ++ [c] := by
        simp [gather,hm,mode_body hm hstep]
      rw [hgather,List.foldlM_append,Body.bracket_step hstep,h j b hm]
      simp [hstep]
  · rw [mode_opened hm hc] at hm'
    obtain ⟨-,rfl⟩ := Mode.body.inj hm'
    rw [gather_eq_nil (by simp [hm])]
    rfl
  · exact absurd hm' (not_body_step hb hd i b')

section Closed

variable {i : Bool} {b : Body} (hm : s.mode = .body i b) (hstep : b.step c = none)
include hm hstep

theorem neutral_of_closed (h : s.Gathers inner)
    (hneutral : i = true ∨ b.bracket = .brace → Substitution.Neutral ⟨i,b.bracket,inner⟩) :
    Substitution.Neutral ⟨i,b.bracket,inner⟩ := by
  by_cases hi : i = true ∨ b.bracket = .brace
  · exact hneutral hi
  · obtain ⟨hinside,hbrace⟩ := not_or.1 hi
    obtain rfl : i = false := Bool.eq_false_iff.2 hinside
    have hparen : b.bracket = .paren := by
      cases hk : b.bracket with
      | paren => rfl
      | brace => exact absurd hk hbrace
    have hread := h false b hm
    rw [hparen] at hread ⊢
    refine Substitution.neutral_of_closes ⟨b,hread,?_⟩
    rwa [← hparen,← Body.eq_closing_of_step hstep]

theorem foldlM_flat_closed (hx : Substitution.Neutral ⟨i,b.bracket,inner⟩) (n : Nat)
    (cs : List Char) : (s.pending inner ++ c :: cs).foldlM Body.step (s.mode.flat n) =
      ((s.step c).pending (s.gather inner c) ++ cs).foldlM Body.step ((s.step c).mode.flat n) := by
  have hm' := mode_body_closed hm hstep
  have hb : ∀ j k, (s.step c).mode ≠ .body j k := by cases i <;> simp [hm']
  have hflat : (s.step c).mode.flat n = .within i n := by
    cases i <;> rw [hm'] <;> rfl
  have hbody : s.pending inner ++ c :: cs = Substitution.body ⟨i,b.bracket,inner⟩ ++ cs := by
    simp [pending_body hm,Substitution.body,Body.eq_closing_of_step hstep]
  rw [flat_body hm,hbody,List.foldlM_append,hx.foldlM n,pending_eq_nil hb,hflat]
  rfl

end Closed

/-- One character brings the reader of bodies on with the scanner, or is put aside until the
substitution is read that it belongs to. -/
theorem foldlM_flat_cons (h : s.Gathers inner) (hc : s.mode ≠ .comment)
    (hneutral : ∀ x ∈ s.closed? inner c, x.inside = true ∨ x.bracket = .brace → x.Neutral)
    (hn : (if s.isOutside c then countParen n c else some n) = some n') (cs : List Char) :
    (s.pending inner ++ c :: cs).foldlM Body.step (s.mode.flat n) =
      ((s.step c).pending (s.gather inner c) ++ cs).foldlM Body.step
        ((s.step c).mode.flat n') := by
  rcases s.body_cases c with ⟨i,b,hm⟩ | ⟨i,b,hm,ho⟩ | ⟨hb,hd⟩
  · obtain rfl : n = n' := by simpa [isOutside,hm] using hn
    cases hstep : b.step c with
    | some b' =>
      have hm' := mode_body hm hstep
      rw [flat_body hm,pending_body hm,flat_body hm',pending_body hm',Body.bracket_step hstep]
      simp [gather,hm,hm']
    | none =>
      have hx := neutral_of_closed hm hstep h fun hi => hneutral _ (by simp [closed?,hm,hstep]) hi
      exact foldlM_flat_closed hm hstep hx n cs
  · obtain rfl : n = n' := by cases i <;> simpa [isOutside,hm,ho] using hn
    have hm' := mode_opened hm ho
    rw [pending_eq_nil (by simp [hm]),pending_body hm',gather_eq_nil (by simp [hm]),flat_body hm',
      Bracket.eq_opening_of_ofChar? ho,hm]
    rfl
  · rw [pending_eq_nil hb,pending_eq_nil (not_body_step hb hd),List.nil_append,List.foldlM_cons,
      flat_step hb hd hc hn]
    rfl

/-- Over a whole text the reader of bodies comes to where the scanner comes, if it gets past the
substitutions. -/
theorem foldlM_flat (cs : List Char) {s : Scanner} {inner : List Char} {n : Nat}
    (h : s.Gathers inner) (hcomment : ∀ done ∈ cs.inits, (done.foldl step s).mode ≠ .comment)
    (hneutral : ∀ x ∈ s.substitutions inner cs, x.inside = true ∨ x.bracket = .brace → x.Neutral)
    (hn : (s.outside cs).foldlM countParen n = some n')
    (hend : ∀ i b, (cs.foldl step s).mode ≠ .body i b) :
    (s.pending inner ++ cs).foldlM Body.step (s.mode.flat n) =
      some ((cs.foldl step s).mode.flat n') := by
  induction cs generalizing s inner n with
  | nil =>
    obtain rfl : n = n' := Option.some.inj hn
    have hnil : s.pending inner = [] := pending_eq_nil hend
    rw [hnil]
    rfl
  | cons c cs ih =>
    have hnext : ∃ m, (if s.isOutside c then countParen n c else some n) = some m ∧
        ((s.step c).outside cs).foldlM countParen m = some n' := by
      rw [outside] at hn
      split_ifs at hn ⊢ with ho
      · exact Option.bind_eq_some_iff.1 hn
      · exact ⟨n,rfl,hn⟩
    obtain ⟨m,hm,hrest⟩ := hnext
    rw [foldlM_flat_cons h (hcomment [] (by simp)) (fun x hx => hneutral x ?_) hm cs]
    · refine ih (h.step c) (fun done hd => hcomment (c :: done) (by simpa using hd)) ?_ hrest hend
      exact fun x hx => hneutral x (List.mem_append_right _ hx)
    · exact List.mem_append_left _ (Option.mem_toList.2 hx)

end Scanner

def substituted (line : String) : String := "$(" ++ line ++ ")"

/-- The line keeps together between brackets, with and without quotes around it, and is what is run
for the substitution. -/
structure Nests (line : String) : Prop where
  plain : Token.scan (substituted line) = .ok [.plain (substituted line)]
  quoted : Token.scan ("\"" ++ substituted line ++ "\"") = .ok [.quoted (substituted line)]
  split : Word.split (substituted line) = [.command line]

/-- A line that can be scanned, without comments, without a backslash at its end, and with balanced
parentheses where these are neither quoted nor escaped nor part of a substitution. -/
structure Orderly (line : String) : Prop where
  scans : ∃ tokens, Token.scan line = .ok tokens
  uncommented : ∀ done ∈ line.toList.inits, (done.foldl Scanner.step .initial).mode ≠ .comment
  unescaped : (line.toList.foldl Scanner.step .initial).mode ≠ .escape
  balanced : (Scanner.initial.outside line.toList).foldlM countParen 0 = some 0

section Nests

variable {line : String}

theorem surround_paren (line : String) : Bracket.paren.surround line = substituted line := by
  simp [Bracket.surround,substituted,Bracket.opening,Bracket.closing,← String.toList_inj]

/-- A line nests where the reader of bodies comes to its closing bracket, and no sooner. -/
theorem nests_iff_closes : Nests line ↔ Body.Closes .paren line.toList := by
  have hsplit : Word.split (Bracket.paren.surround line) = [.ofBody .paren line.toList] ↔
      Body.Closes .paren line.toList := Bracket.split_surround_iff
  simp only [surround_paren,Word.Part.ofBody,String.ofList_toList] at hsplit
  refine ⟨fun h => hsplit.1 h.split,fun h => ⟨?_,?_,hsplit.2 h⟩⟩ <;> rw [← surround_paren]
  · exact Bracket.scan_surround h
  · exact Bracket.scan_quoted_surround h

theorem Orderly.closes (h : Orderly line)
    (hn : ∀ x ∈ Scanner.initial.substitutions [] line.toList,
      x.inside = true ∨ x.bracket = .brace → x.Neutral) : Body.Closes .paren line.toList := by
  obtain ⟨tokens,hscan⟩ := h.scans
  have hcomment := h.uncommented line.toList ((List.mem_inits _ _).2 List.prefix_rfl)
  -- where a line may end, nothing is open
  have hend : (∀ i b, (line.toList.foldl Scanner.step .initial).mode ≠ .body i b) ∧
      (line.toList.foldl Scanner.step .initial).mode.flat 0 = .opened .paren := by
    rw [Token.scan,Scanner.finish] at hscan
    have hescape := h.unescaped
    generalize (line.toList.foldl Scanner.step .initial) = s at hscan hcomment hescape
    split at hscan <;> simp_all [Scanner.Mode.flat,Body.within,Body.opened]
  have hgathers : Scanner.initial.Gathers [] := by simp [Scanner.Gathers,Scanner.initial]
  have hread := Scanner.foldlM_flat line.toList hgathers h.uncommented hn h.balanced hend.1
  rw [hend.2] at hread
  exact ⟨_,hread,rfl⟩

/-- In a line without comments whose parentheses are balanced, everything stays together between
brackets when each substitution between double quotes, and each between braces, leaves the reader
of bodies as it was. Any line stays together when that reader finds its end. -/
theorem nests_of_neutral (line : String) (h : Orderly line) :
    (Nests line ↔ Body.Closes .paren line.toList) ∧
      ((∀ x ∈ Scanner.initial.substitutions [] line.toList,
        x.inside = true ∨ x.bracket = .brace → x.Neutral) → Nests line) :=
  ⟨nests_iff_closes,fun hn => nests_iff_closes.2 (h.closes hn)⟩

def bracketed : String := "say \"a $(b) \\\" c\" $\x7bx\x7d (d $(e \")\")) \\) ')'"

theorem nests_of_neutral_bracketed : Orderly bracketed ∧
    Scanner.initial.substitutions [] bracketed.toList =
      [⟨true,.paren,['b']⟩,⟨false,.brace,['x']⟩,⟨false,.paren,"e \")\"".toList⟩] ∧
    Nests bracketed := by
  have hscan : (Token.scan bracketed).isOk = true := by decide +kernel
  have horderly : Orderly bracketed := by
    refine ⟨?_,by decide +kernel,by decide +kernel,by decide +kernel⟩
    cases h : Token.scan bracketed with
    | ok tokens => exact ⟨tokens,rfl⟩
    | error e => simp [h,Except.isOk,Except.toBool] at hscan
  refine ⟨horderly,by decide +kernel,(nests_of_neutral bracketed horderly).2 ?_⟩
  decide +kernel

def misread : String := "\"$(say \")\")\""

/-- The line is one quoted token by itself and falls apart between brackets. -/
theorem not_nests_misread : Orderly misread ∧
    Token.scan misread = .ok [.quoted "$(say \")\")"] ∧
    Token.scan (substituted misread) =
      .ok [.plain "$(\"$(say \")",.quoted ")",.plain ")"] ∧ ¬Nests misread := by
  have hscan : Token.scan misread = .ok [.quoted "$(say \")\")"] := by decide +kernel
  have horderly : Orderly misread :=
    ⟨⟨_,hscan⟩,by decide +kernel,by decide +kernel,by decide +kernel⟩
  have happart : Token.scan (substituted misread) =
      .ok [.plain "$(\"$(say \")",.quoted ")",.plain ")"] := by decide +kernel
  refine ⟨horderly,hscan,happart,fun h => ?_⟩
  have hplain := h.plain
  rw [happart] at hplain
  simp at hplain

end Nests
end CommandShell
