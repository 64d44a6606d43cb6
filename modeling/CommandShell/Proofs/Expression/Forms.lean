import Mathlib.Data.List.DropRight
import CommandShell.Expression
import CommandShell.Proofs.Run.Words
import CommandShell.Proofs.Substitution.Items
import CommandShell.Proofs.Substitution.Whole

/-! The forms of an expression.
Reading and writing expressions undo each other up to white space around the text, but for operands
with a line break in them, which can be written and not be read. -/
namespace CommandShell
namespace Text

variable {c : Char} {l s before after : List Char}

def EndsBlank (s : String) : Prop := ∃ c ∈ s.toList.getLast?, isBlank c = true

/-- The text is `s` with white space around it. -/
def Around (s text : String) : Prop := ∃ before after, text.toList = before ++ s.toList ++ after ∧
  (∀ c ∈ before, isBlank c = true) ∧ ∀ c ∈ after, isBlank c = true

theorem trim_append (hb : ∀ c ∈ before, isBlank c = true) (ha : ∀ c ∈ after, isBlank c = true)
    (hhead : ∀ c ∈ s.head?, isBlank c = false) (hlast : ∀ c ∈ s.getLast?, isBlank c = false) :
    trim (before ++ s ++ after) = s := by
  have hfront : (before ++ s ++ after).dropWhile isBlank = (s ++ after).dropWhile isBlank := by
    rw [List.append_assoc,List.dropWhile_append_of_pos hb]
  have hback : (s ++ after).rdropWhile isBlank = s.rdropWhile isBlank := by
    rw [List.rdropWhile,List.reverse_append,List.dropWhile_append_of_pos (by simpa using ha)]
    rfl
  rw [trim,hfront]
  change List.rdropWhile isBlank _ = _
  cases s with
  | nil =>
    rw [List.nil_append,List.dropWhile_eq_nil_iff.2 ha]
    rfl
  | cons c s =>
    have hc : isBlank c = false := hhead c rfl
    rw [List.cons_append,List.dropWhile_cons_of_neg (by simp [hc]),← List.cons_append,hback]
    refine List.rdropWhile_eq_self_iff.2 fun hne => ?_
    simp [hlast _ (List.getLast?_eq_some_getLast hne)]

theorem around_trimmed (text : String) : Around (trimmed text) text := by
  refine ⟨text.toList.takeWhile isBlank,(text.toList.dropWhile isBlank).rtakeWhile isBlank,?_,
    fun c hc => List.mem_takeWhile_imp hc,fun c hc => List.mem_rtakeWhile_imp hc⟩
  rw [trimmed,String.toList_ofList,List.append_assoc]
  change _ = _ ++ (List.rdropWhile isBlank _ ++ _)
  rw [List.rdropWhile_append_rtakeWhile,List.takeWhile_append_dropWhile]

theorem not_endsBlank_trimmed (text : String) : ¬EndsBlank (trimmed text) := by
  rintro ⟨c,hc,hblank⟩
  rw [trimmed,String.toList_ofList] at hc
  change c ∈ (List.rdropWhile isBlank _).getLast? at hc
  obtain ⟨hne,rfl⟩ := List.mem_getLast?_eq_getLast hc
  exact List.rdropWhile_last_not _ _ hne hblank

theorem isBlank_eq_false_of_continuesName (h : Word.continuesName c = true) :
    isBlank c = false := by
  rcases (Bool.or_eq_true _ _).mp h with h | h
  · exact isBlank_eq_false_of_isAlphanum h
  · rw [of_decide_eq_true h]
    rfl

end Text

open Word Word.Spelling

namespace Expression

def Fallback.operand : Fallback → String
  | default w | required w => w

def Fallback.text : Fallback → String
  | default w => ":-" ++ w
  | required w => ":?" ++ w

/-- An expression as it is written without white space around it. -/
def text (x : Expression) : String := x.name ++ x.fallback.elim "" Fallback.text

/-- An expression that can be read: its operand has no line break, and no white space at its end
that would be taken for white space around the expression. -/
structure Legible (x : Expression) : Prop where
  name : IsIdentifier x.name
  noBreak : ∀ f ∈ x.fallback, '\n' ∉ f.operand.toList
  ends : ∀ f ∈ x.fallback, ¬Text.EndsBlank f.operand

variable {n text : String} {rest : List Char} {f : Fallback} {x : Expression}

theorem Fallback.parse?_eq_some_iff :
    parse? rest = some f ↔ rest = f.text.toList ∧ '\n' ∉ f.operand.toList := by
  constructor
  · intro h
    unfold parse? at h
    split at h
    all_goals
      first
      | cases h
      | (split_ifs at h with hw
         obtain rfl := Option.some.inj h
         simpa [Fallback.text,operand] using hw)
  · rintro ⟨rfl,hw⟩
    cases f <;> simpa [Fallback.text,operand,parse?] using hw

theorem parse?_eq (hn : IsIdentifier n) (hrest : ∀ c ∈ rest.head?, continuesName c = false)
    (h : Text.trim text.toList = n.toList ++ rest) :
    parse? text = if rest = [] then some ⟨n,none⟩ else (Fallback.parse? rest).map (⟨n,some ·⟩) := by
  obtain ⟨⟨c,hc,hstart⟩,hall⟩ := hn
  have htake : (n.toList ++ rest).takeWhile continuesName = n.toList := by
    rw [List.takeWhile_append_of_pos hall]
    cases rest with
    | nil => simp
    | cons d rest => simp [hrest d rfl]
  have hdrop : (n.toList ++ rest).dropWhile continuesName = rest := by
    rw [List.dropWhile_append_of_pos hall]
    cases rest with
    | nil => rfl
    | cons d rest => simp [hrest d rfl]
  have hhead : (n.toList ++ rest).head? = some c := by
    rw [List.head?_append,hc]
    rfl
  simp only [parse?,h,htake,hdrop,hhead,Option.all_some,hstart,String.ofList_toList]
  cases rest <;> simp

theorem Fallback.toList_text (f : Fallback) : ∃ op, Text.isBlank op = false ∧
    f.text.toList = ':' :: op :: f.operand.toList := by
  cases f with
  | default w => exact ⟨'-',by decide,by simp [Fallback.text,operand]⟩
  | required w => exact ⟨'?',by decide,by simp [Fallback.text,operand]⟩

theorem not_endsBlank_text (hn : IsIdentifier x.name)
    (hw : ∀ f ∈ x.fallback, ¬Text.EndsBlank f.operand) : ¬Text.EndsBlank x.text := by
  rintro ⟨c,hc,hblank⟩
  rcases x with ⟨name,_ | f⟩
  · simp only [Expression.text,Option.elim_none,String.append_empty] at hc
    have hplain := Text.isBlank_eq_false_of_continuesName (hn.2 c (List.mem_of_getLast? hc))
    simp [hplain] at hblank
  · obtain ⟨op,hop,htext⟩ := f.toList_text
    simp only [Expression.text,Option.elim_some,String.toList_append,htext] at hc
    cases ho : f.operand.toList with
    | nil =>
      obtain rfl : op = c := by simpa [ho] using hc
      simp [hop] at hblank
    | cons d w => exact hw f rfl ⟨c,by simpa [ho,List.getLast?_cons_cons] using hc,hblank⟩

theorem parse?_fallback (hn : IsIdentifier n)
    (h : Text.trim text.toList = n.toList ++ f.text.toList) :
    parse? text = (Fallback.parse? f.text.toList).map (⟨n,some ·⟩) := by
  obtain ⟨op,-,hf⟩ := f.toList_text
  have hrest : ∀ c ∈ f.text.toList.head?, continuesName c = false := by
    rw [hf]
    rintro _ ⟨⟩
    decide
  rw [parse?_eq hn hrest h,if_neg (by simp [hf])]

theorem trim_of_around (hn : IsIdentifier x.name) (hw : ∀ f ∈ x.fallback, ¬Text.EndsBlank f.operand)
    (h : Text.Around x.text text) : Text.trim text.toList = x.text.toList := by
  obtain ⟨before,after,htext,hb,ha⟩ := h
  rw [htext]
  refine Text.trim_append hb ha (fun d hd => ?_) fun d hd => ?_
  · obtain ⟨⟨c,hc,-⟩,hall⟩ := hn
    have hhead : x.text.toList.head? = some c := by
      rw [Expression.text,String.toList_append,List.head?_append,hc]
      rfl
    obtain rfl : c = d := Option.some.inj (hhead.symm.trans hd)
    exact Text.isBlank_eq_false_of_continuesName (hall c (List.mem_of_head? hc))
  · exact Bool.not_eq_true _ ▸ fun hblank => not_endsBlank_text hn hw ⟨d,hd,hblank⟩

theorem exists_identifier_of_parse? (h : parse? text = some x) : ∃ n rest, IsIdentifier n ∧
    (∀ c ∈ rest.head?, continuesName c = false) ∧ Text.trim text.toList = n.toList ++ rest := by
  refine ⟨String.ofList ((Text.trim text.toList).takeWhile continuesName),
    (Text.trim text.toList).dropWhile continuesName,?_,fun c hc => head?_dropWhile hc,?_⟩
  · cases hs : Text.trim text.toList with
    | nil => simp [parse?,hs] at h
    | cons c cs =>
      refine isIdentifier_takeWhile ?_ cs
      by_contra hc
      simp [parse?,hs,hc] at h
  · rw [String.toList_ofList,List.takeWhile_append_dropWhile]

/-- What was read is what was written, but for white space around it. -/
theorem trim_of_parse? (h : parse? text = some x) : IsIdentifier x.name ∧
    Text.trim text.toList = x.text.toList ∧ ∀ f ∈ x.fallback, '\n' ∉ f.operand.toList := by
  obtain ⟨n,rest,hn,hrest,htrim⟩ := exists_identifier_of_parse? h
  rw [parse?_eq hn hrest htrim] at h
  split_ifs at h with hnil
  · obtain rfl := Option.some.inj h
    exact ⟨hn,by simp [htrim,hnil,Expression.text],by simp⟩
  · obtain ⟨f,hf,rfl⟩ := Option.map_eq_some_iff.1 h
    obtain ⟨rfl,hbreak⟩ := Fallback.parse?_eq_some_iff.1 hf
    refine ⟨hn,by simp [htrim,Expression.text],?_⟩
    rintro _ ⟨⟩
    exact hbreak

theorem parse?_eq_some_iff : parse? text = some x ↔ Text.Around x.text text ∧ x.Legible := by
  constructor
  · intro h
    obtain ⟨hn,htrim,hbreak⟩ := trim_of_parse? h
    have htext : Text.trimmed text = x.text := by rw [Text.trimmed,htrim,String.ofList_toList]
    have haround := Text.around_trimmed text
    have hends := Text.not_endsBlank_trimmed text
    rw [htext] at haround hends
    refine ⟨haround,hn,hbreak,?_⟩
    rintro f hf ⟨c,hc,hblank⟩
    refine hends ⟨c,?_,hblank⟩
    obtain ⟨op,-,hf'⟩ := f.toList_text
    simp [Expression.text,Option.mem_def.1 hf,hf',List.getLast?_cons,Option.mem_def.1 hc]
  · rintro ⟨haround,hn,hbreak,hends⟩
    have htrim := trim_of_around hn hends haround
    rcases x with ⟨n,_ | f⟩
    · have hname : Text.trim text.toList = n.toList ++ [] := by simpa [Expression.text] using htrim
      rw [parse?_eq hn (by simp) hname,if_pos rfl]
    · rw [parse?_fallback hn (by simpa [Expression.text] using htrim),
        Fallback.parse?_eq_some_iff.2 ⟨rfl,hbreak f rfl⟩]
      rfl

theorem parse?_eq_none (hn : IsIdentifier n) (hw : ¬Text.EndsBlank f.operand)
    (hbreak : '\n' ∈ f.operand.toList) (h : Text.Around (n ++ f.text) text) :
    parse? text = none := by
  have htrim := trim_of_around (x := ⟨n,some f⟩) hn (by rintro _ ⟨⟩; exact hw) h
  refine Option.eq_none_iff_forall_ne_some.2 fun x hx => ?_
  rw [parse?_fallback hn (by simpa [Expression.text] using htrim)] at hx
  obtain ⟨g,hg,rfl⟩ := Option.map_eq_some_iff.1 hx
  obtain ⟨he,hg⟩ := Fallback.parse?_eq_some_iff.1 hg
  obtain ⟨op,-,hf⟩ := f.toList_text
  obtain ⟨op',-,hg'⟩ := g.toList_text
  rw [hf,hg'] at he
  exact hg ((List.cons.inj (List.cons.inj he).2).2 ▸ hbreak)

end Expression

/-- The value of a variable that is set and not empty. -/
def Environment.filled? (e : Environment) (n : String) : Option String :=
  (e.get? n).filter (· ≠ "")

namespace Expression

variable (e : Environment) (n w : String)

theorem eval_name : eval ⟨n,none⟩ e = .ok ((e.get? n).elim .null .str) := by
  unfold eval
  cases e.get? n with
  | none => rfl
  | some v => by_cases hv : v = "" <;> simp [hv,eval.instead]

theorem eval_default : eval ⟨n,some (.default w)⟩ e = .ok (.str ((e.filled? n).getD w)) := by
  unfold eval Environment.filled?
  cases e.get? n with
  | none => rfl
  | some v => by_cases hv : v = "" <;> simp [hv,eval.instead,Option.filter_some]

theorem eval_required : eval ⟨n,some (.required w)⟩ e = match e.filled? n with
    | some v => .ok (.str v)
    | none => .error (n ++ ": " ++ if w = "" then "parameter not set" else w) := by
  have hmissing : ∀ v, eval.instead ⟨n,some (.required w)⟩ v (some (.required w)) =
      .error (n ++ ": " ++ if w = "" then "parameter not set" else w) := by
    intro v
    unfold eval.instead
    split <;> simp_all [String.append_assoc]
  unfold eval Environment.filled?
  cases e.get? n with
  | none => exact hmissing none
  | some v => by_cases hv : v = "" <;> simp [hv,hmissing,Option.filter_some]

end Expression

def Word.braced (text : String) : String := "$\x7b" ++ text ++ "\x7d"

theorem Word.surround_brace (text : String) : Bracket.brace.surround text = braced text := by
  simp [Bracket.surround,braced,Bracket.opening,Bracket.closing,← String.toList_inj]

/-- A text keeps together between braces just when its own braces match. -/
theorem Word.split_braced_iff {text : String} :
    split (braced text) = [.parameter text] ↔ Bracket.brace.Encloses text.toList := by
  rw [← Body.closes_iff_encloses,← Bracket.split_surround_iff,surround_brace]
  simp [Part.ofBody]

theorem Reentry.expand_braced {κ : Type} (inner : Reentry κ) (s : Shell κ) {x : String}
    (h : Bracket.brace.Encloses x.toList) : (inner.expand ⟨[.plain (braced x)]⟩).run s =
      some (((s.session.evaluator x s.session.environment).mapError fun m =>
        ShellError.evaluation (braced x) (.message m)).map fun v => [v.text].filter (· ≠ ""),
        s) := by
  have hexpand : inner.expand ⟨[.plain (braced x)]⟩ = do
      let text ← inner.expandPart (.parameter x)
      return [text].filter (· ≠ "") := by
    simp only [expand,List.foldlM_cons,List.foldlM_nil,expandFragment,expandText,
      split_braced_iff.2 h,List.mapM_cons,List.mapM_nil,bind_assoc,pure_bind]
    refine bind_congr fun text => congrArg pure ?_
    by_cases ht : text = "" <;> simp [Assembly.add,Assembly.flush,String.join,ht]
  have hpart := inner.expandPart_parameter x s
  rw [hexpand]
  cases hv : s.session.evaluator x s.session.environment with
  | ok v =>
    rw [hv] at hpart
    exact bind_run_of_ok hpart
  | error m =>
    rw [hv] at hpart
    have hhalted : (inner.expandPart (.parameter x)).run s =
        halted (some (.evaluation (braced x) (.message m),s)) := hpart
    exact bind_run_of_halted hhalted

namespace Evaluator

variable {n w text : String} {x : Expression}

theorem ofVariables_of_around (hn : IsIdentifier x.name)
    (hw : ∀ f ∈ x.fallback, ¬Text.EndsBlank f.operand)
    (hbreak : ∀ f ∈ x.fallback, '\n' ∉ f.operand.toList) (h : Text.Around x.text text)
    (e : Environment) : ofVariables text e = x.eval e := by
  rw [ofVariables,Expression.parse?_eq_some_iff.2 ⟨h,hn,hbreak,hw⟩]

theorem ofVariables_of_parse?_eq_none (h : Expression.parse? text = none) (e : Environment) :
    ofVariables text e = .error ("bad substitution: " ++ text) := by
  rw [ofVariables,h]

/-- An expression with an operand has its value, unless there is a line break in the operand. -/
theorem ofVariables_fallback {f : Expression.Fallback} (hn : IsIdentifier n)
    (hw : ¬Text.EndsBlank f.operand) (h : Text.Around (n ++ f.text) text) (e : Environment) :
    ofVariables text e = if '\n' ∈ f.operand.toList then .error ("bad substitution: " ++ text)
      else Expression.eval ⟨n,some f⟩ e := by
  split_ifs with hbreak
  · exact ofVariables_of_parse?_eq_none (Expression.parse?_eq_none hn hw hbreak h) e
  · refine ofVariables_of_around (x := ⟨n,some f⟩) hn ?_ ?_ h e
    · rintro _ ⟨⟩
      exact hw
    · rintro _ ⟨⟩
      exact hbreak

theorem ofVariables_of_not_around (h : ∀ x : Expression, IsIdentifier x.name →
    ¬Text.Around x.text text) (e : Environment) :
    ofVariables text e = .error ("bad substitution: " ++ text) := by
  refine ofVariables_of_parse?_eq_none (Option.eq_none_iff_forall_ne_some.2 fun x hx => ?_) e
  obtain ⟨haround,hx⟩ := Expression.parse?_eq_some_iff.1 hx
  exact h x hx.name haround

/-- What an expression of each of the three forms comes to, in every environment and with white
space around it; that a text of none of these forms has no value; and that an expression between
braces is one word, with the text of that value, just when its own braces match. An operand that
has a line break in it makes a text of no form. -/
theorem ofVariables_forms (e : Environment) (text : String) :
    (∀ n, IsIdentifier n → Text.Around n text →
      ofVariables text e = .ok ((e.get? n).elim .null .str)) ∧
    (∀ n w, IsIdentifier n → ¬Text.EndsBlank w → Text.Around (n ++ ":-" ++ w) text →
      ofVariables text e = if '\n' ∈ w.toList then .error ("bad substitution: " ++ text)
        else .ok (.str ((e.filled? n).getD w))) ∧
    (∀ n w, IsIdentifier n → ¬Text.EndsBlank w → Text.Around (n ++ ":?" ++ w) text →
      ofVariables text e = if '\n' ∈ w.toList then .error ("bad substitution: " ++ text)
        else match e.filled? n with
          | some v => .ok (.str v)
          | none => .error (n ++ ": " ++ if w = "" then "parameter not set" else w)) ∧
    ((∀ n, IsIdentifier n → ¬Text.Around n text ∧
        ∀ w, ¬Text.Around (n ++ ":-" ++ w) text ∧ ¬Text.Around (n ++ ":?" ++ w) text) →
      ofVariables text e = .error ("bad substitution: " ++ text)) ∧
    (split (braced text) = [.parameter text] ↔ Bracket.brace.Encloses text.toList) ∧
    (Bracket.brace.Encloses text.toList →
      Line.parse (braced text) = .ok ⟨[⟨[.plain (braced text)]⟩]⟩ ∧
      ∀ {κ : Type} (inner : Reentry κ) (s : Shell κ), s.session.evaluator = ofVariables →
        s.session.environment = e → (inner.expand ⟨[.plain (braced text)]⟩).run s =
          some (((ofVariables text e).mapError fun m =>
            .evaluation (braced text) (.message m)).map fun v => [v.text].filter (· ≠ ""),s)) := by
  refine ⟨fun n hn h => ?_,fun n w hn hw h => ?_,fun n w hn hw h => ?_,fun h => ?_,
    split_braced_iff,fun h => ⟨?_,?_⟩⟩
  · rw [← Expression.eval_name]
    refine ofVariables_of_around (x := ⟨n,none⟩) hn ?_ ?_ ?_ e
    · simp
    · simp
    · simpa [Expression.text] using h
  · rw [← Expression.eval_default]
    refine ofVariables_fallback (f := .default w) hn hw ?_ e
    simpa [Expression.Fallback.text,String.append_assoc] using h
  · rw [← Expression.eval_required]
    refine ofVariables_fallback (f := .required w) hn hw ?_ e
    simpa [Expression.Fallback.text,String.append_assoc] using h
  · refine ofVariables_of_not_around ?_ e
    rintro ⟨n,_ | (w | w)⟩ hn <;> have hnone := h n hn
    · simpa [Expression.text] using hnone.1
    · simpa [Expression.text,Expression.Fallback.text,String.append_assoc] using (hnone.2 w).1
    · simpa [Expression.text,Expression.Fallback.text,String.append_assoc] using (hnone.2 w).2
  · rw [← surround_brace]
    exact Bracket.parse_surround (Body.closes_of_encloses h)
  · rintro κ inner s he rfl
    rw [inner.expand_braced s h,he]

def spaced : String := "\tX:- \"a \x7bb\x7d:\" \n"

theorem ofVariables_forms_spaced : IsIdentifier "X" ∧ ¬Text.EndsBlank " \"a \x7bb\x7d:\"" ∧
    Text.Around ("X" ++ ":-" ++ " \"a \x7bb\x7d:\"") spaced ∧
    ofVariables spaced .empty = .ok (.str " \"a \x7bb\x7d:\"") ∧
    ofVariables spaced (.ofList [("X","v")]) = .ok (.str "v") ∧
    Bracket.brace.Encloses spaced.toList ∧
    Line.parse (braced spaced) = .ok ⟨[⟨[.plain (braced spaced)]⟩]⟩ ∧
    ∀ (κ : Type) (inner : Reentry κ) (s : Shell κ), s.session.evaluator = ofVariables →
      s.session.environment = .empty →
      (inner.expand ⟨[.plain (braced spaced)]⟩).run s = some (.ok [" \"a \x7bb\x7d:\""],s) := by
  have hn : IsIdentifier "X" := ⟨⟨'X',rfl,by decide⟩,List.all_eq_true.1 (by decide)⟩
  have hw : ¬Text.EndsBlank " \"a \x7bb\x7d:\"" := by
    rintro ⟨_,⟨⟩,h⟩
    exact absurd h (by decide)
  have haround : Text.Around ("X" ++ ":-" ++ " \"a \x7bb\x7d:\"") spaced :=
    ⟨['\t'],[' ','\n'],by decide +kernel,List.all_eq_true.1 (by decide),
      List.all_eq_true.1 (by decide)⟩
  have hvalue := fun e => (ofVariables_forms e spaced).2.1 "X" _ hn hw haround
  have hempty : ofVariables spaced .empty = .ok (.str " \"a \x7bb\x7d:\"") := hvalue .empty
  have hbraces : Bracket.brace.Encloses spaced.toList :=
    (ofVariables_forms .empty spaced).2.2.2.2.1.1 (by decide +kernel)
  obtain ⟨hparse,hexpand⟩ := (ofVariables_forms .empty spaced).2.2.2.2.2 hbraces
  refine ⟨hn,hw,haround,hempty,hvalue (.ofList [("X","v")]),hbraces,hparse,?_⟩
  intro κ inner s he henv
  rw [hexpand inner s he henv,hempty]
  rfl

/-- With a line break in it, the operand of an unset variable is lost. -/
theorem not_default_broken : ofVariables "X:-a\nb" .empty = .error "bad substitution: X:-a\nb" ∧
    ¬∀ (e : Environment) (n w text : String), IsIdentifier n → ¬Text.EndsBlank w →
      Text.Around (n ++ ":-" ++ w) text →
      ofVariables text e = .ok (.str ((e.filled? n).getD w)) := by
  have hlost : ofVariables "X:-a\nb" .empty = .error "bad substitution: X:-a\nb" := rfl
  refine ⟨hlost,fun h => ?_⟩
  have hends : ¬Text.EndsBlank "a\nb" := by
    rintro ⟨_,⟨⟩,h⟩
    exact absurd h (by decide)
  have hn : IsIdentifier "X" := ⟨⟨'X',rfl,by decide⟩,List.all_eq_true.1 (by decide)⟩
  have hkept := h .empty "X" "a\nb" "X:-a\nb" hn hends
    ⟨[],[],by decide +kernel,List.forall_mem_nil _,List.forall_mem_nil _⟩
  rw [hlost] at hkept
  cases hkept

end Evaluator
end CommandShell
