import CommandShell.Proofs.Substitution.Ends
import CommandShell.Proofs.Substitution.Items

/-! The scanner watched at work.
While a line is scanned, the bodies of substitutions are noted down as they are gathered. With
each character the notes stay true: the text of each token consists of characters and of the
substitutions noted for it. -/
namespace CommandShell

/-- A scanner and what was noted down. -/
structure Watch where
  scanner : Scanner
  /-- What was read of the body that is open. -/
  body : List Char
  /-- The bodies that were gathered since the last token. -/
  bodies : List Word.Part
  /-- The tokens so far, those with text together with the bodies gathered for them. -/
  gathered : List (Token × List Word.Part)

namespace Watch

def initial : Watch := ⟨.initial,[],[],[]⟩

/-- The tokens that are new among `tokens`, with the bodies gathered since the last one. -/
def credit (w : Watch) (tokens : List Token) : List (Token × List Word.Part) :=
  (tokens.drop w.scanner.tokens.size).map fun t => (t,if t.hasText then w.bodies else [])

def observe (w : Watch) (s : Scanner) (c : Char) : Watch where
  scanner := s
  body := match w.scanner.mode,s.mode with
    | .body _ _,.body _ _ => w.body ++ [c]
    | _,_ => []
  bodies := match w.scanner.mode,s.mode with
    | .body _ _,.body _ _ => w.bodies
    | .body _ b,_ => w.bodies ++ [.ofBody b.bracket w.body]
    | _,_ => if (w.credit s.tokens.toList).any (·.1.hasText) then [] else w.bodies
  gathered := w.gathered ++ w.credit s.tokens.toList

def step (w : Watch) (c : Char) : Watch := w.observe (w.scanner.step c) c

def run (line : String) : Watch := line.toList.foldl step initial

theorem scanner_foldl (cs : List Char) (w : Watch) :
    (cs.foldl step w).scanner = cs.foldl Scanner.step w.scanner := by
  induction cs generalizing w with
  | nil => rfl
  | cons c cs ih => exact ih (w.step c)

def tokens (line : String) : Except Unfinished (List (Token × List Word.Part)) :=
  let w := run line
  w.scanner.finish.map fun tokens => w.gathered ++ w.credit tokens

/-- A text is made of characters and closed substitutions, and these are the given ones. -/
structure Reads (items : List Word.Item) (text : List Char) (bodies : List Word.Part) : Prop where
  fit : Word.Item.Fit items
  text : items.flatMap Word.Item.text = text
  bodies : items.filterMap Word.Item.part? = bodies

theorem reads_nil : Reads [] [] [] := ⟨⟨by simp,.nil⟩,rfl,rfl⟩

namespace Reads

variable {items : List Word.Item} {text : List Char} {bodies : List Word.Part}

theorem append (h : Reads items text bodies) {x : Word.Item}
    (hx : ∀ b inner, x = .sub b inner → Body.Closes b inner)
    (ha : ∀ y ∈ items.getLast?, Word.Item.Apart y x) :
    Reads (items ++ [x]) (text ++ x.text) (bodies ++ x.part?.toList) := by
  refine ⟨⟨?_,?_⟩,?_,?_⟩
  · intro b inner hm
    rcases List.mem_append.1 hm with hm | hm
    · exact h.fit.closes b inner hm
    · exact hx b inner (List.mem_singleton.1 hm).symm
  · refine h.fit.apart.append (.singleton x) fun y hy z hz => ?_
    rw [← Option.some.inj hz]
    exact ha y hy
  · simp [h.text]
  · cases hp : x.part? <;> simp [hp,h.bodies]

theorem push (h : Reads items text bodies) {c : Char}
    (hc : items.getLast? = some (.char '$') → Bracket.ofChar? c = none) :
    Reads (items ++ [.char c]) (text ++ [c]) bodies := by
  have hr := h.append (x := .char c) (by simp) fun y hy hd d hdc => by
    rw [hd] at hy
    exact Word.Item.char.inj hdc ▸ hc hy
  simpa [Word.Item.text,Word.Item.part?] using hr

theorem close (h : Reads items text bodies) {b : Bracket} {inner : List Char}
    (hb : Body.Closes b inner) :
    Reads (items ++ [.sub b inner]) (text ++ '$' :: b.opening :: (inner ++ [b.closing]))
      (bodies ++ [.ofBody b inner]) := by
  refine h.append (x := .sub b inner) ?_ fun y _ _ d hd => by cases hd
  rintro b' inner' he
  obtain ⟨rfl,rfl⟩ := Word.Item.sub.inj he
  exact hb

theorem bodies_eq_nil (h : Reads items [] bodies) : bodies = [] := by
  rw [← h.bodies]
  cases items with
  | nil => rfl
  | cons x items =>
    have ht := h.text
    cases x <;> simp [Word.Item.text] at ht

theorem of_concat {x : Char} (h : Reads (items ++ [.char x]) text bodies) :
    Reads items (items.flatMap Word.Item.text) bodies := by
  refine ⟨h.fit.part (List.prefix_append _ _).isInfix,rfl,?_⟩
  rw [← h.bodies]
  simp [Word.Item.part?]

end Reads

end Watch

namespace Watch

variable {w : Watch} {s s' : Scanner} {c : Char} {items : List Word.Item}

/-- The texts of tokens are read as what was gathered for them. -/
structure Noted (w : Watch) : Prop where
  tokens : w.gathered.map Prod.fst = w.scanner.tokens.toList
  reads : ∀ t bodies, (t,bodies) ∈ w.gathered → ∀ text, t = .plain text ∨ t = .quoted text →
    ∃ items, Reads items text.toList bodies

/-- What the text that is being collected is made of, in each mode. -/
def Open (w : Watch) : Prop :=
  match w.scanner.mode with
  | .start | .escape | .comment => w.scanner.text = "" ∧ w.bodies = []
  | .single => w.bodies = []
  | .bare | .double => ∃ items, Reads items w.scanner.text.toList w.bodies ∧
      items.getLast? ≠ some (.char '$')
  | .doubleEscape => ∃ items, Reads items w.scanner.text.toList w.bodies
  | .dollar _ => ∃ items, Reads (items ++ [.char '$']) w.scanner.text.toList w.bodies
  | .body _ b => ∃ items text, Reads items text w.bodies ∧
      w.scanner.text.toList = text ++ '$' :: b.bracket.opening :: w.body ∧
      w.body.foldlM Body.step (.opened b.bracket) = some b

theorem credit_eq (new : List Token) {tokens : List Token}
    (h : tokens = w.scanner.tokens.toList ++ new) :
    w.credit tokens = new.map fun t => (t,if t.hasText then w.bodies else []) := by
  rw [credit,h,← Array.length_toList,List.drop_left]

theorem observe_eq (hb : ∀ i b, w.scanner.mode ≠ .body i b) {new : List Token}
    (ht : s'.tokens.toList = w.scanner.tokens.toList ++ new) (hn : ∀ t ∈ new, t.hasText = false) :
    w.observe s' c = ⟨s',[],w.bodies,w.gathered ++ new.map fun t => (t,[])⟩ := by
  have hcredit : w.credit s'.tokens.toList = new.map fun t => (t,[]) := by
    rw [credit_eq new ht]
    exact List.map_congr_left fun t hm => by simp [hn t hm]
  simp only [observe,hcredit]
  split
  case h_1 h _ => exact absurd h (hb _ _)
  all_goals simp_all

theorem Noted.append (h : w.Noted) {new : List Token}
    (ht : s'.tokens.toList = w.scanner.tokens.toList ++ new) (hn : ∀ t ∈ new, t.hasText = false) :
    Noted ⟨s',[],w.bodies,w.gathered ++ new.map fun t => (t,[])⟩ := by
  refine ⟨?_,fun t bodies hm text htext => ?_⟩
  · simp [h.tokens,ht,Function.comp_def]
  · rcases List.mem_append.1 hm with hm | hm
    · exact h.reads t bodies hm text htext
    · obtain ⟨t',hmem,he⟩ := List.mem_map.1 hm
      have hfalse := hn t' hmem
      rw [(Prod.mk.inj he).1] at hfalse
      rcases htext with rfl | rfl <;> cases hfalse

theorem mem_map_credit {new : List Token} {t : Token} {bodies : List Word.Part}
    (h : (t,bodies) ∈ new.map fun t => (t,if t.hasText then w.bodies else [])) :
    t ∈ new ∧ (t.hasText = true → bodies = w.bodies) := by
  obtain ⟨t',ht,he⟩ := List.mem_map.1 h
  obtain ⟨rfl,rfl⟩ := Prod.mk.inj he
  exact ⟨ht,fun htext => if_pos htext⟩

/-- New tokens are noted down with what their text is made of. -/
theorem Noted.credit (h : w.Noted) (hr : Reads items s.text.toList w.bodies) {new : List Token}
    (hc : ∀ t ∈ new, t.hasText = true → t = .plain s.text ∨ t = .quoted s.text) :
    ∀ t bodies, (t,bodies) ∈ w.gathered ++ new.map (fun t => (t,if t.hasText then w.bodies else []))
      → ∀ text, t = .plain text ∨ t = .quoted text → ∃ items, Reads items text.toList bodies := by
  intro t bodies hm text ht
  rcases List.mem_append.1 hm with hm | hm
  · exact h.reads t bodies hm text ht
  · obtain ⟨hnew,hbodies⟩ := mem_map_credit hm
    have htext : t.hasText = true := by rcases ht with rfl | rfl <;> rfl
    have heq : text = s.text := by
      rcases ht with rfl | rfl <;> simpa using hc _ hnew htext
    rw [heq,hbodies htext]
    exact ⟨items,hr⟩

/-- When the text has gone into tokens, the notes are about these, and nothing is left open. -/
theorem noted_of_ends (h : w.Noted) (hb : ∀ i b, w.scanner.mode ≠ .body i b)
    (hs : s.tokens = w.scanner.tokens) (hr : Reads items s.text.toList w.bodies) {new : List Token}
    (he : s.Ends s' new) : (w.observe s' c).Noted ∧ (w.observe s' c).Open := by
  have hcredit := credit_eq new (hs ▸ he.tokens)
  have hbodies : (w.observe s' c).bodies = [] := by
    simp only [observe,hcredit]
    split
    case h_1 hm _ => exact absurd hm (hb _ _)
    case h_2 hm _ => exact absurd hm (hb _ _)
    split_ifs with hany
    · rfl
    · have hnone : ∀ t ∈ new, t.hasText = false := by simpa using hany
      rw [he.nothing hnone] at hr
      exact hr.bodies_eq_nil
  have hgathered : (w.observe s' c).gathered =
      w.gathered ++ new.map fun t => (t,if t.hasText then w.bodies else []) := by
    rw [← hcredit]
    rfl
  refine ⟨⟨?_,?_⟩,?_⟩
  · have htokens : (w.observe s' c).scanner.tokens.toList = w.scanner.tokens.toList ++ new :=
      hs ▸ he.tokens
    rw [hgathered,htokens,List.map_append,h.tokens]
    simp [Function.comp_def]
  · rw [hgathered]
    exact h.credit hr he.collected
  · have htext : (w.observe s' c).scanner.text = "" := he.text
    have hnil : ∃ items, Reads items (w.observe s' c).scanner.text.toList
        (w.observe s' c).bodies ∧ items.getLast? ≠ some (.char '$') := by
      rw [htext,hbodies]
      exact ⟨[],reads_nil,by simp⟩
    have hmode : (w.observe s' c).scanner.mode = s'.mode := rfl
    rcases he.mode with hm | hm | hm | hm | hm <;> simp only [Open,hmode,hm]
    · exact ⟨htext,hbodies⟩
    · exact hnil
    · exact hbodies
    · exact hnil
    · exact ⟨htext,hbodies⟩

theorem observe_preserves (h : w.Noted) (hb : ∀ i b, w.scanner.mode ≠ .body i b)
    (new : List Token) (ht : s'.tokens.toList = w.scanner.tokens.toList ++ new)
    (hn : ∀ t ∈ new, t.hasText = false)
    (ho : ∀ gathered, Open ⟨s',[],w.bodies,gathered⟩) :
    (w.observe s' c).Noted ∧ (w.observe s' c).Open := by
  rw [observe_eq hb ht hn]
  exact ⟨h.append ht hn,ho _⟩

section Step

variable (h : w.Noted) (hb : ∀ i b, w.scanner.mode ≠ .body i b)
  (hs : s.tokens = w.scanner.tokens) (hr : Reads items s.text.toList w.bodies)
include h hb hs hr

theorem keep_dollar (i : Bool) : (w.observe ((s.keep '$').goto (.dollar i)) c).Noted ∧
    (w.observe ((s.keep '$').goto (.dollar i)) c).Open := by
  have hpush := hr.push (c := '$') fun _ => by decide
  refine observe_preserves h hb [] (by simp [Scanner.keep,Scanner.goto,hs]) (by simp)
    fun gathered => ⟨items,?_⟩
  simpa [Scanner.keep,Scanner.goto] using hpush

theorem keep_char (hc : items.getLast? = some (.char '$') → Bracket.ofChar? c = none)
    (hd : c ≠ '$') {m : Scanner.Mode} (hm : m = .bare ∨ m = .double) :
    (w.observe ((s.keep c).goto m) c).Noted ∧ (w.observe ((s.keep c).goto m) c).Open := by
  have hpush := hr.push hc
  have hopen : ∃ items, Reads items (s.text.push c).toList w.bodies ∧
      items.getLast? ≠ some (.char '$') := ⟨_,by simpa using hpush,by simpa using hd⟩
  refine observe_preserves h hb [] (by simp [Scanner.keep,Scanner.goto,hs]) (by simp)
    fun gathered => ?_
  rcases hm with rfl | rfl <;> exact hopen

theorem unquoted_preserves
    (hc : items.getLast? = some (.char '$') → Bracket.ofChar? c = none)
    (hstart : s.mode = .start → s.text = "") :
    (w.observe (s.unquoted c) c).Noted ∧ (w.observe (s.unquoted c) c).Open := by
  rcases s.unquoted_cases c with ⟨new,he⟩ | ⟨hm,he⟩ | ⟨rfl,he⟩ | ⟨hd,he⟩
  · exact noted_of_ends h hb hs hr he
  · rw [he]
    rw [hstart hm] at hr
    exact observe_preserves h hb [] (by simp [Scanner.goto,hs]) (by simp)
      fun gathered => ⟨hstart hm,hr.bodies_eq_nil⟩
  · rw [he]
    exact keep_dollar h hb hs hr false
  · rw [he]
    exact keep_char h hb hs hr hc hd (.inl rfl)

theorem quoted_preserves
    (hc : items.getLast? = some (.char '$') → Bracket.ofChar? c = none) :
    (w.observe (s.quoted c) c).Noted ∧ (w.observe (s.quoted c) c).Open := by
  rcases s.quoted_cases c with ⟨new,he⟩ | ⟨-,he⟩ | ⟨rfl,he⟩ | ⟨hd,he⟩
  · exact noted_of_ends h hb hs hr he
  · rw [he]
    exact observe_preserves h hb [] (by simp [Scanner.goto,hs]) (by simp)
      fun gathered => ⟨items,hr⟩
  · rw [he]
    exact keep_dollar h hb hs hr true
  · rw [he]
    exact keep_char h hb hs hr hc hd (.inr rfl)

end Step

theorem body_preserves (h : w.Noted) (ho : w.Open) {i : Bool} {b : Body}
    (hm : w.scanner.mode = .body i b) (c : Char) : (w.step c).Noted ∧ (w.step c).Open := by
  simp only [Open,hm] at ho
  obtain ⟨items,text,hr,htext,hbody⟩ := ho
  cases hstep : b.step c with
  | some b' =>
    have hscan : w.scanner.step c = (w.scanner.keep c).goto (.body i b') := by
      simp [Scanner.step,hm,hstep]
    have hw : w.step c = ⟨(w.scanner.keep c).goto (.body i b'),w.body ++ [c],w.bodies,
        w.gathered⟩ := by
      have hcredit : w.credit ((w.scanner.keep c).goto (.body i b')).tokens.toList = [] :=
        credit_eq [] (by simp [Scanner.keep,Scanner.goto])
      rw [step,hscan,observe,hcredit]
      simp [hm,Scanner.goto]
    rw [hw]
    have hbracket : b'.bracket = b.bracket := Body.bracket_step hstep
    refine ⟨⟨h.tokens,h.reads⟩,items,text,hr,?_,?_⟩
    · simp [Scanner.goto,Scanner.keep,htext,hbracket]
    · rw [hbracket,List.foldlM_append,hbody]
      simp [hstep]
  | none =>
    have hc : c = b.bracket.closing := Body.eq_closing_of_step hstep
    have hclose := hr.close ⟨b,hbody,hc ▸ hstep⟩
    have hscan : w.scanner.step c = (w.scanner.keep c).goto (if i then .double else .bare) := by
      simp [Scanner.step,hm,hstep]
    have hw : w.step c = ⟨(w.scanner.keep c).goto (if i then .double else .bare),[],
        w.bodies ++ [.ofBody b.bracket w.body],w.gathered⟩ := by
      have hcredit : w.credit ((w.scanner.keep c).goto (if i then .double else .bare)).tokens.toList
          = [] := credit_eq [] (by simp [Scanner.keep,Scanner.goto])
      rw [step,hscan,observe,hcredit]
      cases i <;> simp [hm,Scanner.goto]
    rw [hw]
    have hread : ∃ items, Reads items (w.scanner.text.push c).toList
        (w.bodies ++ [.ofBody b.bracket w.body]) ∧ items.getLast? ≠ some (.char '$') := by
      refine ⟨items ++ [.sub b.bracket w.body],?_,by simp⟩
      rw [String.toList_push,htext,hc]
      simpa using hclose
    refine ⟨⟨h.tokens,h.reads⟩,?_⟩
    cases i <;> exact hread

theorem open_empty (s : Scanner) (gathered : List (Token × List Word.Part)) (ht : s.text = "")
    (hm : s.mode = .start ∨ s.mode = .bare ∨ s.mode = .comment) : Open ⟨s,[],[],gathered⟩ := by
  have hnil : Reads [] s.text.toList [] := by
    rw [ht]
    exact reads_nil
  rcases hm with hm | hm | hm <;> simp only [Open,hm]
  · exact ⟨ht,trivial⟩
  · exact ⟨[],hnil,by simp⟩
  · exact ⟨ht,trivial⟩

section Modes

variable (h : w.Noted) (ho : w.Open) (c : Char)
include h ho

theorem single_preserves (hm : w.scanner.mode = .single) : (w.step c).Noted ∧ (w.step c).Open := by
  have hb : ∀ i b, w.scanner.mode ≠ .body i b := by simp [hm]
  simp only [Open,hm] at ho
  simp only [step,Scanner.step,hm]
  split_ifs
  · refine observe_preserves h hb [.verbatim w.scanner.text]
      (by simp [Scanner.close,Scanner.goto]) (by simp [Token.hasText]) fun gathered => ?_
    rw [ho]
    exact open_empty _ _ rfl (.inr (.inl rfl))
  · refine observe_preserves h hb [] (by simp [Scanner.keep]) (by simp)
      fun gathered => ?_
    simpa only [Open,Scanner.keep,hm] using ho

theorem escape_preserves (hm : w.scanner.mode = .escape) : (w.step c).Noted ∧ (w.step c).Open := by
  have hb : ∀ i b, w.scanner.mode ≠ .body i b := by simp [hm]
  simp only [Open,hm] at ho
  simp only [step,Scanner.step,hm]
  split_ifs
  · refine observe_preserves h hb [] (by simp [Scanner.goto]) (by simp)
      fun gathered => ?_
    rw [ho.2]
    exact open_empty _ _ ho.1 (.inr (.inl rfl))
  · refine observe_preserves h hb [.verbatim (String.singleton c)]
      (by simp [Scanner.emit,Scanner.goto]) (by simp [Token.hasText]) fun gathered => ?_
    rw [ho.2]
    exact open_empty _ _ ho.1 (.inr (.inl rfl))

theorem comment_preserves (hm : w.scanner.mode = .comment) :
    (w.step c).Noted ∧ (w.step c).Open := by
  have hb : ∀ i b, w.scanner.mode ≠ .body i b := by simp [hm]
  simp only [Open,hm] at ho
  simp only [step,Scanner.step,hm]
  split_ifs
  · refine observe_preserves h hb [.separator] (by simp [Scanner.emit,Scanner.goto])
      (by simp [Token.hasText]) fun gathered => ?_
    rw [ho.2]
    exact open_empty _ _ ho.1 (.inl rfl)
  · refine observe_preserves h hb [] (by simp) (by simp) fun gathered => ?_
    rw [ho.2]
    exact open_empty _ _ ho.1 (.inr (.inr hm))

theorem doubleEscape_preserves (hm : w.scanner.mode = .doubleEscape) :
    (w.step c).Noted ∧ (w.step c).Open := by
  have hb : ∀ i b, w.scanner.mode ≠ .body i b := by simp [hm]
  simp only [Open,hm] at ho
  obtain ⟨items,hr⟩ := ho
  simp only [step,Scanner.step,hm]
  split_ifs
  · have hends : w.scanner.Ends
        (((w.scanner.flush .quoted).emit (.verbatim (String.singleton c))).goto .double)
        (w.scanner.flushed .quoted ++ [.verbatim (String.singleton c)]) :=
      w.scanner.ends_flush (.inr rfl) (by simp [Scanner.goto,Scanner.Mode.Fresh])
        (w.scanner.text_flush .quoted)
        (by simp [Scanner.goto,Scanner.emit,w.scanner.tokens_flush]) (by simp [Token.hasText])
    exact noted_of_ends h hb rfl hr hends
  · have hpush := hr.push (c := '\\') fun _ => by decide
    exact quoted_preserves (s := w.scanner.keep '\\') h hb rfl
      (by simpa [Scanner.keep] using hpush) (by simp)

theorem dollar_preserves {i : Bool} (hm : w.scanner.mode = .dollar i) :
    (w.step c).Noted ∧ (w.step c).Open := by
  have hb : ∀ i b, w.scanner.mode ≠ .body i b := by simp [hm]
  simp only [Open,hm] at ho
  obtain ⟨items,hr⟩ := ho
  simp only [step,Scanner.step,hm]
  cases hc : Bracket.ofChar? c with
  | some b =>
    refine observe_preserves h hb [] (by simp [Scanner.keep,Scanner.goto]) (by simp)
      fun gathered => ⟨items,_,hr.of_concat,?_,rfl⟩
    have htext := hr.text
    rw [Bracket.eq_opening_of_ofChar? hc]
    simp [Scanner.keep,Scanner.goto,← htext,Body.opened,Word.Item.text]
  | none =>
    cases i with
    | true => exact quoted_preserves h hb rfl hr fun _ => hc
    | false =>
      exact unquoted_preserves (s := w.scanner.goto .bare) h hb rfl hr (fun _ => hc)
        (by simp [Scanner.goto])

/-- Each character keeps the notes true. -/
theorem step_preserves : (w.step c).Noted ∧ (w.step c).Open := by
  cases hm : w.scanner.mode with
  | start =>
    have hb : ∀ i b, w.scanner.mode ≠ .body i b := by simp [hm]
    simp only [Open,hm] at ho
    have hr : Reads [] w.scanner.text.toList w.bodies := by
      rw [ho.1,ho.2]
      exact reads_nil
    simp only [step,Scanner.step,hm]
    exact unquoted_preserves h hb rfl hr (by simp) fun _ => ho.1
  | bare =>
    have hb : ∀ i b, w.scanner.mode ≠ .body i b := by simp [hm]
    simp only [Open,hm] at ho
    obtain ⟨items,hr,hlast⟩ := ho
    simp only [step,Scanner.step,hm]
    exact unquoted_preserves h hb rfl hr (fun hd => absurd hd hlast) (by simp [hm])
  | double =>
    have hb : ∀ i b, w.scanner.mode ≠ .body i b := by simp [hm]
    simp only [Open,hm] at ho
    obtain ⟨items,hr,hlast⟩ := ho
    simp only [step,Scanner.step,hm]
    exact quoted_preserves h hb rfl hr fun hd => absurd hd hlast
  | single => exact single_preserves h ho c hm
  | escape => exact escape_preserves h ho c hm
  | comment => exact comment_preserves h ho c hm
  | doubleEscape => exact doubleEscape_preserves h ho c hm
  | dollar i => exact dollar_preserves h ho c hm
  | body i b => exact body_preserves h ho hm c

end Modes
end Watch
end CommandShell
