import CommandShell.Proofs.Alias.Reading
import CommandShell.Proofs.Substitution.Enclosed

/-! The grammar of lines.
A line is a sequence of pieces, each of which is recognised by its first characters, and every piece
stands for tokens of its own. The scanner reads every such line as the tokens of its pieces and
leaves every other line unfinished. -/
namespace CommandShell

/-- A part of bare text or of text between double quotes. -/
inductive Span
  | char (c : Char)
  /-- A backslash between double quotes, with the character that it escapes. -/
  | escape (c : Char)
  | body (b : Bracket) (inner : List Char)
  deriving DecidableEq

namespace Span

def text : Span → List Char
  | char c => [c]
  | escape c => ['\\',c]
  | body b inner => '$' :: b.opening :: (inner ++ [b.closing])

def isBare (c : Char) : Bool :=
  !(Scanner.isBlank c || Scanner.isSeparator c || Scanner.isOperator c || c = '\'' || c = '"' ||
    c = '\\')

/-- Whether a character may stand in text of a kind; between double quotes only these may not. -/
def goesOn (inside : Bool) (c : Char) : Bool := if inside then c ≠ '"' else isBare c

/-- A dollar sign that is a span by itself stands before no bracket, and a backslash before no
character that it would escape. -/
def Alone (c : Char) (rest : List Char) : Prop :=
  ∀ d ∈ rest.head?,
    (c = '$' → Bracket.ofChar? d = none) ∧ (c = '\\' → Scanner.isEscapable d = false)

/-- The text is a sequence of spans, as long as possible, followed by what is left of it: between
double quotes that is the quote that ends them. -/
inductive Run (inside : Bool) : List Span → List Char → List Char → Prop
  | stop {rest} (hne : inside = true → rest ≠ []) (h : ∀ c ∈ rest.head?, goesOn inside c = false) :
      Run inside [] rest rest
  | char {c spans text rest} (hc : goesOn inside c = true) (ha : Alone c text)
      (h : Run inside spans text rest) : Run inside (.char c :: spans) (c :: text) rest
  | escape {c spans text rest} (hi : inside = true) (hc : Scanner.isEscapable c = true)
      (h : Run inside spans text rest) :
      Run inside (.escape c :: spans) ('\\' :: c :: text) rest
  | body {b inner spans text rest} (hb : b.Encloses inner) (h : Run inside spans text rest) :
      Run inside (.body b inner :: spans) ('$' :: b.opening :: (inner ++ b.closing :: text)) rest

/-- The tokens of a text between double quotes, of which `text` was read since the last escape. -/
def quoted (text : String) : List Span → List Token
  | [] => [.quoted text]
  | .escape c :: spans =>
    (if text = "" then [] else [.quoted text]) ++ .verbatim (String.singleton c) :: quoted "" spans
  | s :: spans => quoted (text ++ String.ofList s.text) spans

end Span

inductive Piece
  | blank (c : Char)
  | separator (c : Char)
  /-- What follows a number sign where an argument might begin. -/
  | comment (text : List Char)
  | operator (c : Char)
  | escape (c : Char)
  /-- A backslash at the end of the line. -/
  | backslash
  | single (text : List Char)
  | double (spans : List Span)
  | bare (spans : List Span)
  deriving DecidableEq

namespace Piece

def text : Piece → List Char
  | blank c | separator c | operator c => [c]
  | comment text => '#' :: text
  | escape c => ['\\',c]
  | backslash => ['\\']
  | single text => '\'' :: (text ++ ['\''])
  | double spans => '"' :: (spans.flatMap Span.text ++ ['"'])
  | bare spans => spans.flatMap Span.text

/-- Behind blanks and separators an argument may begin, so a number sign begins a comment. -/
def opens : Piece → Bool
  | blank _ | separator _ => true
  | _ => false

/-- The text begins with the piece; what is left of it comes behind. The flag says that an argument
may begin here. -/
inductive Takes (fresh : Bool) : Piece → List Char → List Char → Prop
  | blank {c rest} (hc : Scanner.isBlank c = true) : Takes fresh (.blank c) (c :: rest) rest
  | separator {c rest} (hc : Scanner.isSeparator c = true) :
      Takes fresh (.separator c) (c :: rest) rest
  | comment {text rest} (hf : fresh = true) (ht : '\n' ∉ text) (hr : ∀ c ∈ rest.head?, c = '\n') :
      Takes fresh (.comment text) ('#' :: (text ++ rest)) rest
  | operator {c rest} (hc : Scanner.isOperator c = true) :
      Takes fresh (.operator c) (c :: rest) rest
  | escape {rest} (c : Char) : Takes fresh (.escape c) ('\\' :: c :: rest) rest
  | backslash : Takes fresh .backslash ['\\'] []
  | single {text rest} (ht : '\'' ∉ text) :
      Takes fresh (.single text) ('\'' :: (text ++ '\'' :: rest)) rest
  | double {spans text rest} (hs : Span.Run true spans text ('"' :: rest)) :
      Takes fresh (.double spans) ('"' :: text) rest
  | bare {spans text rest} (hne : spans ≠ []) (hf : fresh = true → text.head? ≠ some '#')
      (hs : Span.Run false spans text rest) : Takes fresh (.bare spans) text rest

/-- The text is the sequence of the pieces. -/
inductive Reads : Bool → List Piece → List Char → Prop
  | nil {fresh} : Reads fresh [] []
  | cons {fresh p pieces text rest} (hp : Takes fresh p text rest) (h : Reads p.opens pieces rest) :
      Reads fresh (p :: pieces) text

def onto (before : List Token) : Piece → List Token
  | blank _ => before ++ Token.spaceAfter before
  | separator _ => before ++ [.separator]
  | comment _ => before
  | operator c => before ++ [.verbatim (String.singleton c)]
  | escape c => if c = '\n' then before else before ++ [.verbatim (String.singleton c)]
  | backslash => before ++ [.verbatim "\\"]
  | single text => before ++ [.verbatim (String.ofList text)]
  | double spans => before ++ Span.quoted "" spans
  | bare spans => before ++ [.plain (String.ofList (spans.flatMap Span.text))]

def translate (pieces : List Piece) : List Token := pieces.foldl onto []

end Piece

namespace Span

variable {inside : Bool} {spans : List Span} {text rest : List Char}

theorem Run.text_eq (h : Run inside spans text rest) : text = spans.flatMap Span.text ++ rest := by
  induction h with
  | stop => rfl
  | char _ _ _ ih => rw [ih]; rfl
  | escape _ _ _ ih => rw [ih]; rfl
  | body _ _ ih =>
    rw [ih]
    simp [Span.text]

theorem Run.ends (h : Run inside spans text rest) :
    (inside = true → rest ≠ []) ∧ ∀ c ∈ rest.head?, goesOn inside c = false := by
  induction h with
  | stop hne h => exact ⟨hne,h⟩
  | char _ _ _ ih | escape _ _ _ ih | body _ _ ih => exact ih

theorem text_ne_nil (s : Span) : s.text ≠ [] := by
  cases s <;> simp [text]

end Span

namespace Piece

variable {fresh : Bool} {p : Piece} {pieces : List Piece} {text rest : List Char}

theorem Takes.text_eq (h : Takes fresh p text rest) : text = p.text ++ rest := by
  cases h with
  | blank | separator | operator | escape | backslash => rfl
  | comment => rfl
  | single => simp [Piece.text]
  | double hs => simp [hs.text_eq,Piece.text]
  | bare _ _ hs => exact hs.text_eq

theorem Reads.text_eq (h : Reads fresh pieces text) : text = pieces.flatMap Piece.text := by
  induction h with
  | nil => rfl
  | cons hp _ ih => rw [hp.text_eq,ih,List.flatMap_cons]

end Piece

namespace Scanner

variable {inside fresh : Bool} {text rest : List Char} {c : Char} {spans : List Span} {p : Piece}
  {tokens : List Token} {x : String}

def result (s : Scanner) (rest : List Char) : Except Unfinished (List Token) :=
  (rest.foldl step s).finish

theorem result_cons (s : Scanner) (c : Char) (rest : List Char) :
    s.result (c :: rest) = (s.step c).result rest := rfl

theorem result_append (s : Scanner) (text rest : List Char) :
    s.result (text ++ rest) = (text.foldl step s).result rest := by
  rw [result,List.foldl_append,result]

def along (inside : Bool) (x : String) (tokens : List Token) : Scanner :=
  ⟨if inside then .double else .bare,x,tokens.toArray⟩

def between (fresh : Bool) (tokens : List Token) : Scanner :=
  ⟨if fresh then .start else .bare,"",tokens.toArray⟩

theorem unquoted_eq (s : Scanner) (c : Char) : s.unquoted c =
    if isBlank c then between true (s.done ++ Token.spaceAfter s.done)
    else if isSeparator c then between true (s.done ++ [.separator])
    else if c = '#' ∧ s.mode = .start then s.goto .comment
    else if c = '\'' then ⟨.single,"",s.done.toArray⟩
    else if c = '"' then along true "" s.done
    else if c = '\\' then ⟨.escape,"",s.done.toArray⟩
    else if isOperator c then between false (s.done ++ [.verbatim (String.singleton c)])
    else if c = '$' then (s.keep c).goto (.dollar false)
    else (s.keep c).goto .bare := by
  simp only [unquoted,flush_eq,blank_mk]
  simp only [goto,emit,between,along,List.push_toArray,if_true,Bool.false_eq_true,if_false]

@[simp] theorem done_along (x : String) (tokens : List Token) :
    (along false x tokens).done = if x = "" then tokens else tokens ++ [.plain x] := by
  unfold done flush
  split_ifs <;> simp_all [along,close]

@[simp] theorem done_between (fresh : Bool) (tokens : List Token) :
    (between fresh tokens).done = tokens := by
  simp [done,flush,between]

theorem result_dollar (h : ∀ d ∈ rest.head?, Bracket.ofChar? d = none) (x : String)
    (tokens : List Token) :
    result ⟨.dollar inside,x,tokens.toArray⟩ rest = (along inside x tokens).result rest := by
  cases rest with
  | nil => cases inside <;> by_cases hx : x = "" <;> simp [result,finish,along,flush,close,hx]
  | cons d rest =>
    have hd : Bracket.ofChar? d = none := h d rfl
    rw [result_cons,result_cons]
    cases inside <;> simp only [step,hd,along,if_true,quoted] <;> rfl

theorem result_backslash (h : ∀ d ∈ rest.head?, isEscapable d = false) (x : String)
    (tokens : List Token) : result ⟨.doubleEscape,x,tokens.toArray⟩ rest =
      (along true (x.push '\\') tokens).result rest := by
  cases rest with
  | nil => rfl
  | cons d rest =>
    have hd : isEscapable d = false := h d rfl
    rw [result_cons,result_cons]
    simp only [step,hd,Bool.false_eq_true,if_false,along,if_true,quoted]
    rfl

theorem isBare_iff : Span.isBare c = true ↔ isBlank c = false ∧ isSeparator c = false ∧
    isOperator c = false ∧ c ≠ '\'' ∧ c ≠ '"' ∧ c ≠ '\\' := by
  simp [Span.isBare,and_assoc]

theorem result_char (hc : Span.goesOn inside c = true) (ha : Span.Alone c rest) (x : String)
    (tokens : List Token) :
    (along inside x tokens).result (c :: rest) = (along inside (x.push c) tokens).result rest := by
  rw [result_cons]
  by_cases hdollar : c = '$'
  · subst hdollar
    rw [← result_dollar fun d hd => (ha d hd).1 rfl]
    cases inside <;> rfl
  cases inside with
  | false =>
    obtain ⟨h1,h2,h3,h4,h5,h6⟩ := isBare_iff.1 hc
    simp [along,step,unquoted,h1,h2,h3,h4,h5,h6,hdollar,keep,goto]
  | true =>
    by_cases hslash : c = '\\'
    · subst hslash
      rw [← result_backslash fun d hd => (ha d hd).2 rfl]
      rfl
    · have hquote : c ≠ '"' := by simpa [Span.goesOn] using hc
      simp [along,step,quoted,hquote,hslash,hdollar,keep,goto]

theorem result_escape (hc : isEscapable c = true) (x : String) (tokens : List Token) :
    (along true x tokens).result ('\\' :: c :: rest) = (along true ""
      (tokens ++ ((if x = "" then [] else [Token.quoted x]) ++
        [.verbatim (String.singleton c)]))).result rest := by
  by_cases hx : x = "" <;>
    simp [result_cons,along,step,quoted,goto,hc,flush,close,emit,hx]

theorem result_opening (inside : Bool) (b : Bracket) (x : String) (tokens : List Token) :
    (along inside x tokens).result ('$' :: b.opening :: rest) = result
      ⟨.body inside (.reading b 0),x ++ String.ofList ['$',b.opening],tokens.toArray⟩ rest := by
  have hx : (x.push '$').push b.opening = x ++ String.ofList ['$',b.opening] := by
    rw [← String.toList_inj]
    simp
  rw [result_cons,result_cons,← hx]
  cases inside <;> cases b <;> rfl

theorem result_body {b : Bracket} {inner : List Char} (h : b.Encloses inner) (inside : Bool)
    (x : String) (tokens : List Token) :
    (along inside x tokens).result ('$' :: b.opening :: (inner ++ b.closing :: rest)) =
      (along inside (x ++ String.ofList (Span.body b inner).text) tokens).result rest := by
  have hx : (x ++ String.ofList ['$',b.opening] ++ String.ofList inner).push b.closing =
      x ++ String.ofList (Span.body b inner).text := by
    rw [← String.toList_inj]
    simp [Span.text]
  rw [result_opening,result_append,foldl_body (Body.passes_encloses h 0),result_cons,← hx]
  simp only [step,Body.step_last,along]
  rfl

theorem result_unclosed {b : Bracket} (h : (Body.reading b 0).Stays rest) (inside : Bool)
    (x : String) (tokens : List Token) :
    ∃ e, (along inside x tokens).result ('$' :: b.opening :: rest) = .error e := by
  obtain ⟨k,hk⟩ := h
  rw [result_opening,result,foldl_body hk]
  exact ⟨_,rfl⟩

theorem result_bare (h : Span.Run false spans text rest) (x : String) (tokens : List Token) :
    (along false x tokens).result text =
      (along false (x ++ String.ofList (spans.flatMap Span.text)) tokens).result rest := by
  induction h generalizing x with
  | stop => simp
  | char hc ha _ ih =>
    rw [result_char hc ha,ih,push_append_ofList]
    rfl
  | escape hi => cases hi
  | body hb _ ih =>
    rw [result_body hb,ih,List.flatMap_cons,String.ofList_append,String.append_assoc]

theorem result_double (h : Span.Run true spans text ('"' :: rest)) (x : String)
    (tokens : List Token) : (along true x tokens).result text =
      (between false (tokens ++ Span.quoted x spans)).result rest := by
  generalize ho : '"' :: rest = left at h
  induction h generalizing x tokens with
  | stop =>
    subst ho
    rw [result_cons]
    simp [along,between,step,quoted,close,goto,Span.quoted]
  | @char c spans _ _ hc ha _ ih =>
    have hx : x.push c = x ++ String.ofList (Span.char c).text := by
      rw [← String.toList_inj]
      simp [Span.text]
    rw [result_char hc ha,ih _ _ ho,hx]
    rfl
  | escape _ hc _ ih =>
    rw [result_escape hc,ih _ _ ho,Span.quoted,List.append_assoc,List.append_assoc]
    rfl
  | body hb _ ih =>
    rw [result_body hb,ih _ _ ho]
    rfl

theorem result_flush (h : ∀ c ∈ rest.head?, Span.isBare c = false) (x : String)
    (tokens : List Token) :
    (along false x tokens).result rest =
      (between false (along false x tokens).done).result rest := by
  cases rest with
  | nil => rw [result,result,List.foldl_nil,List.foldl_nil,finish_of_ready (.inr (.inl rfl)),
      finish_of_ready (.inr (.inl rfl)),done_between]
  | cons c rest =>
    have hc : Span.isBare c = false := h c rfl
    have hstep : (along false x tokens).unquoted c =
        (between false (along false x tokens).done).unquoted c := by
      rw [unquoted_eq,unquoted_eq,done_between]
      have hmode : (along false x tokens).mode ≠ .start := by simp [along]
      have hmode' : ∀ l, (between false l).mode ≠ .start := by simp [between]
      simp only [hmode,hmode',and_false,if_false]
      split_ifs
      all_goals first | rfl | simp_all [Span.isBare]
    exact congrArg (result · rest) hstep

theorem result_fresh (h : fresh = true → text.head? ≠ some '#') (tokens : List Token) :
    (between fresh tokens).result text = (between false tokens).result text := by
  cases fresh with
  | false => rfl
  | true =>
    cases text with
    | nil => rfl
    | cons c text =>
      have hc : c ≠ '#' := by simpa using h rfl
      have hstep : (between true tokens).unquoted c = (between false tokens).unquoted c := by
        rw [unquoted_eq,unquoted_eq,done_between,done_between]
        simp only [hc,false_and,if_false]
        rfl
      exact congrArg (result · text) hstep

theorem foldl_comment (ht : '\n' ∉ text) (x : String) (tokens : Array Token) :
    text.foldl step ⟨.comment,x,tokens⟩ = ⟨.comment,x,tokens⟩ := by
  induction text with
  | nil => rfl
  | cons c text ih =>
    obtain ⟨hc,ht⟩ := not_or.1 (mt List.mem_cons.2 ht)
    have hstep : step ⟨.comment,x,tokens⟩ c = ⟨.comment,x,tokens⟩ := if_neg (Ne.symm hc)
    rw [List.foldl_cons,hstep,ih ht]

theorem foldl_verbatim (ht : '\'' ∉ text) (x : String) (tokens : Array Token) :
    text.foldl step ⟨.single,x,tokens⟩ = ⟨.single,x ++ String.ofList text,tokens⟩ := by
  induction text generalizing x with
  | nil => simp
  | cons c text ih =>
    obtain ⟨hc,ht⟩ := not_or.1 (mt List.mem_cons.2 ht)
    have hstep : step ⟨.single,x,tokens⟩ c = ⟨.single,x.push c,tokens⟩ := if_neg (Ne.symm hc)
    rw [List.foldl_cons,hstep,ih ht,push_append_ofList]

theorem result_between (fresh : Bool) (tokens : List Token) (c : Char) (rest : List Char) :
    (between fresh tokens).result (c :: rest) =
      ((between fresh tokens).unquoted c).result rest := by
  cases fresh <;> rfl

theorem result_separator (hc : isSeparator c = true) (fresh : Bool) (tokens : List Token) :
    (between fresh tokens).result (c :: rest) =
      (between true (tokens ++ [.separator])).result rest := by
  simp only [isSeparator,Bool.or_eq_true,decide_eq_true_eq] at hc
  rw [result_between,unquoted_eq,done_between]
  rcases hc with rfl | rfl <;> rfl

theorem result_escaping (fresh : Bool) (tokens : List Token) (rest : List Char) :
    (between fresh tokens).result ('\\' :: rest) =
      result ⟨.escape,"",tokens.toArray⟩ rest := by
  rw [result_between,unquoted_eq,done_between]
  rfl

theorem result_verbatim (fresh : Bool) (tokens : List Token) (rest : List Char) :
    (between fresh tokens).result ('\'' :: rest) =
      result ⟨.single,"",tokens.toArray⟩ rest := by
  rw [result_between,unquoted_eq,done_between]
  rfl

theorem result_quoted (fresh : Bool) (tokens : List Token) (rest : List Char) :
    (between fresh tokens).result ('"' :: rest) = (along true "" tokens).result rest := by
  rw [result_between,unquoted_eq,done_between]
  rfl

/-- A comment ends before the break of the line, which separates as it does without one. -/
theorem result_comment (ht : '\n' ∉ text) (hr : ∀ c ∈ rest.head?, c = '\n')
    (tokens : List Token) :
    (between true tokens).result ('#' :: (text ++ rest)) = (between false tokens).result rest := by
  have hopen : (between true tokens).unquoted '#' = ⟨.comment,"",tokens.toArray⟩ := rfl
  rw [result_between,hopen,result_append,foldl_comment ht]
  cases rest with
  | nil => simp [result,finish,between,flush]
  | cons c rest =>
    obtain rfl : c = '\n' := hr c rfl
    have hend : step ⟨.comment,"",tokens.toArray⟩ '\n' =
        between true (tokens ++ [.separator]) := by
      simp [step,emit,goto,between]
    rw [result_cons,hend,result_separator rfl]

/-- A piece stands for its tokens, whatever comes behind it. -/
theorem result_takes (h : p.Takes fresh text rest) (tokens : List Token) :
    (between fresh tokens).result text = (between p.opens (p.onto tokens)).result rest := by
  cases h with
  | @blank c _ hc =>
    rw [result_between,unquoted_eq,if_pos hc,done_between]
    rfl
  | separator hc => exact result_separator hc fresh tokens
  | comment hf ht hr =>
    subst hf
    exact result_comment ht hr tokens
  | @operator c _ hc =>
    simp only [isOperator,Bool.or_eq_true,decide_eq_true_eq] at hc
    rw [result_between,unquoted_eq,done_between]
    rcases hc with ((rfl | rfl) | rfl) | rfl <;> rfl
  | escape c =>
    rw [result_escaping,result_cons]
    congr 1
    by_cases hc : c = '\n' <;>
      simp [step,hc,goto,emit,between,Piece.opens,Piece.onto]
  | backslash =>
    rw [result_escaping]
    simp [result,finish,emit,between,flush,Piece.opens,Piece.onto]
  | single ht =>
    rw [result_verbatim,result_append,foldl_verbatim ht,result_cons]
    congr 1
    simp [step,close,goto,between,Piece.opens,Piece.onto]
  | double hs =>
    rw [result_quoted,result_double hs]
    rfl
  | @bare spans _ _ hne hf hs =>
    have htext : String.ofList (spans.flatMap Span.text) ≠ "" := by
      obtain ⟨s,spans,rfl⟩ := List.exists_cons_of_ne_nil hne
      simp [← String.toList_inj,Span.text_ne_nil]
    rw [result_fresh hf]
    refine (result_bare hs "" tokens).trans ?_
    rw [result_flush hs.ends.2,done_along,String.empty_append,if_neg htext]
    rfl

theorem result_reads {pieces : List Piece} (h : Piece.Reads fresh pieces text)
    (tokens : List Token) :
    (between fresh tokens).result text = .ok (pieces.foldl Piece.onto tokens) := by
  induction h generalizing tokens with
  | @nil fresh =>
    cases fresh <;> simp [result,finish,between,flush]
  | cons hp _ ih => rw [result_takes hp,ih,List.foldl_cons]

end Scanner

namespace Span

/-- A character by which a run goes on is a span by itself, or it opens a body or an escape. -/
theorem alone_or_opens (hc : goesOn inside c = true) :
    Alone c s ∨ (∃ b rest, c = '$' ∧ s = Bracket.opening b :: rest) ∨
      ∃ d rest, inside = true ∧ c = '\\' ∧ s = d :: rest ∧ Scanner.isEscapable d = true := by
  cases s with
  | nil => exact .inl nofun
  | cons d rest =>
    by_cases hbody : c = '$' ∧ (Bracket.ofChar? d).isSome = true
    · obtain ⟨hdollar,hd⟩ := hbody
      obtain ⟨b,hb⟩ := Option.isSome_iff_exists.1 hd
      exact .inr (.inl ⟨b,rest,hdollar,Bracket.eq_opening_of_ofChar? hb ▸ rfl⟩)
    by_cases hescape : c = '\\' ∧ Scanner.isEscapable d = true
    · obtain ⟨rfl,hd⟩ := hescape
      -- outside of double quotes a backslash ends the run
      obtain rfl : inside = true := by
        cases inside with
        | true => rfl
        | false => cases hc
      exact .inr (.inr ⟨d,rest,rfl,rfl,rfl,hd⟩)
    · refine .inl fun d' hd => ?_
      obtain rfl := Option.some.inj hd
      exact ⟨fun he => by simpa using not_and.1 hbody he,
        fun he => by simpa using not_and.1 hescape he⟩

/-- A text goes on to the end of a run of spans, or leaves the line unfinished. -/
theorem run_or_unfinished (inside : Bool) (s : List Char) :
    (∃ spans rest, Run inside spans s rest) ∨
      ∀ x tokens, ∃ e, (Scanner.along inside x tokens).result s = .error e := by
  induction hn : s.length using Nat.strong_induction_on generalizing s with
  | _ n ih =>
    cases s with
    | nil =>
      cases inside with
      | false => exact .inl ⟨[],[],.stop (by simp) (by simp)⟩
      | true => exact .inr fun x tokens => ⟨_,rfl⟩
    | cons c s =>
      rw [List.length_cons] at hn
      cases hc : goesOn inside c with
      | false => exact .inl ⟨[],c :: s,.stop (by simp) (by simpa using hc)⟩
      | true =>
        rcases alone_or_opens (s := s) hc with halone | ⟨b,s,rfl,rfl⟩ | ⟨d,s,rfl,rfl,rfl,hd⟩
        · rcases ih _ (by omega) s rfl with ⟨spans,left,hr⟩ | he
          · exact .inl ⟨_,_,.char hc halone hr⟩
          · refine .inr fun x tokens => ?_
            rw [Scanner.result_char hc halone]
            exact he _ _
        · rcases Body.begins_or_stays b s with ⟨inner,rest,rfl,hi⟩ | hs
          · have hlt : rest.length < n := by
              simp only [List.length_cons,List.length_append] at hn
              omega
            rcases ih _ hlt rest rfl with ⟨spans,left,hr⟩ | he
            · exact .inl ⟨_,_,.body hi hr⟩
            · refine .inr fun x tokens => ?_
              rw [Scanner.result_body hi]
              exact he _ _
          · exact .inr fun x tokens => Scanner.result_unclosed (hs 0) inside x tokens
        · rw [List.length_cons] at hn
          rcases ih _ (by omega) s rfl with ⟨spans,left,hr⟩ | he
          · exact .inl ⟨_,_,.escape rfl hd hr⟩
          · refine .inr fun x tokens => ?_
            rw [Scanner.result_escape hd]
            exact he _ _

end Span

namespace Piece

variable {fresh : Bool} {p : Piece} {pieces : List Piece} {text rest : List Char}

theorem Takes.length_lt (h : Takes fresh p text rest) : rest.length < text.length := by
  have hne : p.text ≠ [] := by
    cases h with
    | @bare spans _ _ hne =>
      obtain ⟨s,spans,rfl⟩ := List.exists_cons_of_ne_nil hne
      simp [Piece.text,Span.text_ne_nil]
    | _ => simp [Piece.text]
  have hpos := List.length_pos_iff.2 hne
  rw [h.text_eq,List.length_append]
  omega

/-- A text begins with a piece, or leaves the line unfinished. -/
theorem takes_or_unfinished (fresh : Bool) (c : Char) (s : List Char) :
    (∃ p rest, Takes fresh p (c :: s) rest) ∨
      ∀ tokens, ∃ e, (Scanner.between fresh tokens).result (c :: s) = .error e := by
  by_cases hblank : Scanner.isBlank c = true
  · exact .inl ⟨_,_,.blank hblank⟩
  by_cases hsep : Scanner.isSeparator c = true
  · exact .inl ⟨_,_,.separator hsep⟩
  by_cases hop : Scanner.isOperator c = true
  · exact .inl ⟨_,_,.operator hop⟩
  by_cases hslash : c = '\\'
  · subst hslash
    cases s with
    | nil => exact .inl ⟨_,_,.backslash⟩
    | cons d s => exact .inl ⟨_,_,.escape d⟩
  by_cases hsingle : c = '\''
  · subst hsingle
    by_cases hm : '\'' ∈ s
    · obtain ⟨text,rest,rfl,ht⟩ := List.eq_append_cons_of_mem hm
      exact .inl ⟨_,_,.single ht⟩
    · refine .inr fun tokens => ⟨.quote,?_⟩
      rw [Scanner.result_verbatim,Scanner.result,Scanner.foldl_verbatim hm]
      rfl
  by_cases hdouble : c = '"'
  · subst hdouble
    rcases Span.run_or_unfinished true s with ⟨spans,rest,hr⟩ | he
    · obtain ⟨hne,hend⟩ := hr.ends
      obtain ⟨d,rest,rfl⟩ := List.exists_cons_of_ne_nil (hne rfl)
      obtain rfl : d = '"' := by simpa [Span.goesOn] using hend d rfl
      exact .inl ⟨_,_,.double hr⟩
    · refine .inr fun tokens => ?_
      rw [Scanner.result_quoted]
      exact he _ _
  by_cases hhash : fresh = true ∧ c = '#'
  · obtain ⟨rfl,rfl⟩ := hhash
    by_cases hm : '\n' ∈ s
    · obtain ⟨text,rest,rfl,ht⟩ := List.eq_append_cons_of_mem hm
      exact .inl ⟨_,_,.comment rfl ht (by simp)⟩
    · have htake : Takes true (.comment s) ('#' :: (s ++ [])) [] := .comment rfl hm (by simp)
      rw [List.append_nil] at htake
      exact .inl ⟨_,_,htake⟩
  have hbare : Span.goesOn false c = true := by
    simp_all [Span.goesOn,Span.isBare]
  have hfresh : fresh = true → (c :: s).head? ≠ some '#' := by
    intro hf he
    exact hhash ⟨hf,Option.some.inj he⟩
  rcases Span.run_or_unfinished false (c :: s) with ⟨spans,rest,hr⟩ | he
  · have hne : spans ≠ [] := by
      rintro rfl
      cases hr with
      | stop _ h =>
        rw [h c rfl] at hbare
        cases hbare
    exact .inl ⟨_,_,.bare hne hfresh hr⟩
  · refine .inr fun tokens => ?_
    rw [Scanner.result_fresh hfresh]
    exact he "" tokens

/-- What the scanner takes to its end is a sequence of pieces. -/
theorem reads_of_result (s : List Char) {fresh : Bool} {tokens result : List Token}
    (h : (Scanner.between fresh tokens).result s = .ok result) :
    ∃ pieces, Reads fresh pieces s := by
  induction hn : s.length using Nat.strong_induction_on generalizing s fresh tokens with
  | _ n ih =>
    cases s with
    | nil => exact ⟨[],.nil⟩
    | cons c s =>
      rcases takes_or_unfinished fresh c s with ⟨p,rest,hp⟩ | he
      · rw [Scanner.result_takes hp] at h
        obtain ⟨pieces,hr⟩ := ih _ (hn ▸ hp.length_lt) rest h rfl
        exact ⟨p :: pieces,.cons hp hr⟩
      · obtain ⟨e,he⟩ := he tokens
        rw [he] at h
        cases h

end Piece

/-- A line can be scanned exactly if it is a sequence of pieces. These account for all of it, and
the tokens are those that the pieces stand for. -/
theorem Token.scan_accepts (line : String) :
    ((∃ tokens, scan line = .ok tokens) ↔ ∃ pieces, Piece.Reads true pieces line.toList) ∧
      ∀ pieces, Piece.Reads true pieces line.toList →
        line.toList = pieces.flatMap Piece.text ∧ scan line = .ok (Piece.translate pieces) := by
  have hscan : scan line = (Scanner.between true []).result line.toList := rfl
  have htokens : ∀ pieces, Piece.Reads true pieces line.toList →
      scan line = .ok (Piece.translate pieces) := fun pieces h => by
    rw [hscan,Scanner.result_reads h,Piece.translate]
  refine ⟨⟨?_,?_⟩,fun pieces h => ⟨h.text_eq,htokens pieces h⟩⟩
  · rintro ⟨tokens,h⟩
    exact Piece.reads_of_result line.toList (hscan ▸ h)
  · rintro ⟨pieces,h⟩
    exact ⟨_,htokens pieces h⟩

def Piece.noted : List Piece :=
  [.bare [.body .paren ['\'',')','\'']],.blank ' ',.comment ['x']]

/-- The quoted bracket does not end the substitution, and the comment leaves no token. -/
theorem Token.scan_accepts_noted :
    (∃ tokens, scan "$(')') #x" = .ok tokens) ∧
      "$(')') #x".toList = Piece.noted.flatMap Piece.text ∧
      scan "$(')') #x" = .ok [.plain "$(')')",.space] := by
  have hquote : '\'' ∉ [')'] := by decide
  have hend : ∀ c ∈ [' ','#','x'].head?, Span.goesOn false c = false := by
    rintro c ⟨⟩
    rfl
  have hrun : Span.Run false [.body .paren ['\'',')','\'']]
      ['$','(','\'',')','\'',')',' ','#','x'] [' ','#','x'] :=
    .body (.single rfl hquote .nil) (.stop (by simp) hend)
  have hbreak : '\n' ∉ ['x'] := by decide
  have hcomment : Piece.Takes true (.comment ['x']) ['#','x'] [] := .comment rfl hbreak (by simp)
  have hreads : Piece.Reads true Piece.noted "$(')') #x".toList :=
    .cons (.bare (by simp) (by simp) hrun) (.cons (.blank rfl) (.cons hcomment .nil))
  obtain ⟨hiff,hall⟩ := scan_accepts "$(')') #x"
  have htokens : Piece.translate Piece.noted = [.plain "$(')')",.space] := by decide
  exact ⟨hiff.2 ⟨_,hreads⟩,(hall _ hreads).1,htokens ▸ (hall _ hreads).2⟩

end CommandShell
