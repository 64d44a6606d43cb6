import CommandShell.Proofs.Run.Adequacy
import CommandShell.Proofs.Run.Sequence

/-! Words of a statement.
The parts of a statement are filled in from left to right, each in the session that the one before
left; the first that fails ends it. Then what stands between two blanks is one word, or none if it
is empty, whatever was filled in. -/
namespace CommandShell

variable {κ : Type}

def Fragment.parts : Fragment → List Word.Part
  | .plain text | .quoted text => Word.split text
  | .verbatim text => [.literal text]
  | .space => []

/-- The parts that stand between two blanks. -/
def Statement.groupsOf (fragments : List Fragment) : List (List Word.Part) :=
  (fragments.splitOn .space).map (·.flatMap Fragment.parts)

def Statement.groups (st : Statement) : List (List Word.Part) := groupsOf st.fragments

theorem Statement.groupsOf_nil : groupsOf [] = [[]] := rfl

theorem Statement.groupsOf_ne_nil (fragments : List Fragment) : groupsOf fragments ≠ [] := by
  simp [groupsOf]

theorem Statement.groupsOf_space (fragments : List Fragment) :
    groupsOf (.space :: fragments) = [] :: groupsOf fragments := by
  simp [groupsOf,List.splitOn_cons_eq_if_modifyHead]

theorem Statement.groupsOf_cons {f : Fragment} (hf : f ≠ .space) (fragments : List Fragment) :
    groupsOf (f :: fragments) = (groupsOf fragments).modifyHead (f.parts ++ ·) := by
  have hne : (f == Fragment.space) = false := by simpa using hf
  rw [groupsOf,List.splitOn_cons_eq_if_modifyHead,hne]
  cases hs : fragments.splitOn .space with
  | nil => exact absurd hs (List.splitOn_ne_nil _ _)
  | cons g gs => simp [groupsOf,hs]

theorem Statement.length_groups (st : Statement) :
    st.groups.length = st.fragments.count .space + 1 := by
  rw [groups]
  induction st.fragments with
  | nil => rfl
  | cons f fragments ih =>
    by_cases hf : f = .space
    · rw [hf,groupsOf_space,List.length_cons,ih,List.count_cons_self]
    · rw [groupsOf_cons hf,List.length_modifyHead,ih,List.count_cons_of_ne hf]

def Statement.parts (st : Statement) : List Word.Part := st.fragments.flatMap Fragment.parts

theorem Statement.flatten_groups (st : Statement) : st.groups.flatten = st.parts := by
  rw [groups,parts]
  induction st.fragments with
  | nil => rfl
  | cons f fragments ih =>
    by_cases hf : f = .space
    · rw [hf,groupsOf_space,List.flatten_cons,ih]
      rfl
    · obtain ⟨g,gs,hg⟩ := List.exists_cons_of_ne_nil (groupsOf_ne_nil fragments)
      rw [hg] at ih
      rw [groupsOf_cons hf,hg,List.modifyHead_cons,List.flatten_cons,List.append_assoc,
        List.flatMap_cons,← ih,List.flatten_cons]

namespace Reentry

def fillGroups (inner : Reentry κ) (groups : List (List Word.Part)) :
    ShellAct κ (List (List String)) :=
  groups.mapM (·.mapM inner.expandPart)

/-- The words that groups come to when their parts are filled in, where `text` stands before the
first part. -/
def wordsAfter (text : String) (texts : List (List String)) : List String :=
  ((texts.map String.join).modifyHead (text ++ ·)).filter (· ≠ "")

theorem expandFragment_eq (inner : Reentry κ) {f : Fragment} (hf : f ≠ .space) (a : Assembly) :
    inner.expandFragment a f =
      (fun ts => a.add (String.join ts)) <$> f.parts.mapM inner.expandPart := by
  cases f with
  | plain text | quoted text =>
    simp only [expandFragment,expandText,Fragment.parts,bind_assoc,pure_bind,map_eq_pure_bind]
  | verbatim text => simp [expandFragment,Fragment.parts,expandPart,String.join]
  | space => exact absurd rfl hf

theorem wordsAfter_empty (texts : List (List String)) :
    wordsAfter "" texts = (texts.map String.join).filter (· ≠ "") := by
  cases texts <;> simp [wordsAfter]

theorem Assembly.flush_text (a : Assembly) : a.flush.text = "" := by
  unfold flush
  split_ifs with h
  · exact h
  · rfl

theorem Assembly.words_flush (a : Assembly) (texts : List (List String)) :
    a.flush.words ++ wordsAfter a.flush.text texts =
      a.words ++ wordsAfter a.text ([] :: texts) := by
  rw [a.flush_text,wordsAfter_empty]
  unfold flush
  split_ifs with h <;> simp [wordsAfter,h,String.join]

theorem wordsAfter_append (text : String) (ts us : List String) (texts : List (List String)) :
    wordsAfter text ((ts ++ us) :: texts) = wordsAfter (text ++ String.join ts) (us :: texts) := by
  simp [wordsAfter,String.join_append,String.append_assoc]

/-- Assembling the words one fragment after the other is to fill in all groups and then to join what
is in each of them. -/
theorem foldlM_expandFragment (inner : Reentry κ) (fragments : List Fragment) (a : Assembly) :
    (fun b => b.flush.words) <$> fragments.foldlM inner.expandFragment a =
      (fun texts => a.words ++ wordsAfter a.text texts) <$>
        inner.fillGroups (Statement.groupsOf fragments) := by
  unfold fillGroups
  induction fragments generalizing a with
  | nil =>
    have hend := a.words_flush []
    simp only [Assembly.flush_text,wordsAfter_empty,List.map_nil,List.filter_nil,
      List.append_nil] at hend
    simp [Statement.groupsOf_nil,hend]
  | cons f fragments ih =>
    by_cases hf : f = .space
    · subst hf
      have hspace : inner.expandFragment a .space = pure a.flush := rfl
      rw [List.foldlM_cons,hspace,pure_bind,ih,Statement.groupsOf_space]
      simp [a.words_flush]
    · obtain ⟨g,gs,hg⟩ := List.exists_cons_of_ne_nil (Statement.groupsOf_ne_nil fragments)
      rw [List.foldlM_cons,expandFragment_eq inner hf,bind_map_left,map_bind]
      simp only [ih,Statement.groupsOf_cons hf,hg,List.modifyHead_cons,List.mapM_cons,
        List.mapM_append]
      simp [Assembly.add,wordsAfter_append]

/-- The parts are filled in one after the other. Literal text stands for itself, an expression is
evaluated over the variables of that moment, and a line is run and leaves the shell to what comes
next. -/
inductive Fills (inner : Reentry κ) : Shell κ → List Word.Part → List String → Shell κ → Prop
  | done {s} : Fills inner s [] [] s
  | literal {s text parts texts s'} (h : Fills inner s parts texts s') :
      Fills inner s (.literal text :: parts) (text :: texts) s'
  | parameter {s x v parts texts s'} (hv : s.session.evaluator x s.session.environment = .ok v)
      (h : Fills inner s parts texts s') :
      Fills inner s (.parameter x :: parts) (v.text :: texts) s'
  | command {s line text s₁ parts texts s'}
      (hl : (inner.substitute line).run s = some (.ok text,s₁))
      (h : Fills inner s₁ parts texts s') :
      Fills inner s (.command line :: parts) (text :: texts) s'

/-- The part is evaluated and fails. -/
inductive Fails (inner : Reentry κ) (s : Shell κ) : Word.Part → ShellError → Shell κ → Prop
  | parameter {x text} (hv : s.session.evaluator x s.session.environment = .error text) :
      Fails inner s (.parameter x) (.evaluation ("$\x7b" ++ x ++ "\x7d") (.message text)) s
  | command {line e s'} (hl : (inner.substitute line).run s = some (.error e,s')) :
      Fails inner s (.command line) ((Frame.substitution line).carry e) s'

/-- All parts before `p` have been filled in when the shell is `s₁`. -/
def Reaches (inner : Reentry κ) (s : Shell κ) (parts : List Word.Part) (p : Word.Part)
    (s₁ : Shell κ) : Prop :=
  ∃ before after texts, parts = before ++ p :: after ∧ inner.Fills s before texts s₁

/-- What a run comes to that has no value: nothing within its depth, or an error. -/
def halted {α : Type} (stop : Option (ShellError × Shell κ)) :
    Option (Except ShellError α × Shell κ) :=
  stop.map fun r => (.error r.1,r.2)

section Halted

variable {α β : Type} {s s' : Shell κ} {stop : Option (ShellError × Shell κ)} {x : ShellAct κ α}

theorem ok_ne_halted (a : α) : some (.ok a,s) ≠ halted (α := α) stop := by
  cases stop <;> simp [halted]

theorem halted_or_ok (r : Option (Except ShellError α × Shell κ)) :
    (∃ stop, r = halted stop) ∨ ∃ a t, r = some (.ok a,t) := by
  rcases r with _ | ⟨a | e,t⟩
  · exact .inl ⟨none,rfl⟩
  · exact .inl ⟨some (a,t),rfl⟩
  · exact .inr ⟨_,t,rfl⟩

theorem bind_run_of_halted {f : α → ShellAct κ β} (h : x.run s = halted stop) :
    (x >>= f).run s = halted stop := by
  rw [ExceptT.run_bind]
  change (x.run s).bind _ = _
  rw [h]
  cases stop <;> rfl

theorem bind_run_of_ok {f : α → ShellAct κ β} {a : α} {t : Shell κ} (h : x.run s = some (.ok a,t)) :
    (x >>= f).run s = (f a).run t := by
  rw [ExceptT.run_bind]
  change (x.run s).bind _ = _
  rw [h]
  rfl

theorem halted_inj {stop' : Option (ShellError × Shell κ)}
    (h : halted (α := α) stop = halted stop') : stop = stop' := by
  cases stop <;> cases stop' <;> simp_all [halted,Prod.ext_iff]

theorem bind_eq_halted_iff {f : α → ShellAct κ β} : (x >>= f).run s = halted stop ↔
    x.run s = halted stop ∨ ∃ a t, x.run s = some (.ok a,t) ∧ (f a).run t = halted stop := by
  obtain ⟨stop',h⟩ | ⟨a,t,h⟩ := halted_or_ok (x.run s)
  · rw [bind_run_of_halted h,h]
    constructor
    · intro he
      exact .inl (congrArg halted (halted_inj he))
    · rintro (he | ⟨a,t,he,-⟩)
      · exact congrArg halted (halted_inj he)
      · exact absurd he.symm (ok_ne_halted a)
  · rw [bind_run_of_ok h,h]
    constructor
    · intro he
      exact .inr ⟨a,t,rfl,he⟩
    · rintro (he | ⟨b,u,he,hu⟩)
      · exact absurd he (ok_ne_halted a)
      · obtain ⟨⟨rfl⟩,rfl⟩ := Prod.mk.inj (Option.some.inj he)
        exact hu

theorem map_eq_halted_iff {f : α → β} : (f <$> x).run s = halted stop ↔ x.run s = halted stop := by
  rw [map_eq_pure_bind,bind_eq_halted_iff]
  exact or_iff_left fun ⟨a,_,_,he⟩ => ok_ne_halted (f a) he

theorem bind_eq_ok_iff {f : α → ShellAct κ β} {b : β} : (x >>= f).run s = some (.ok b,s') ↔
    ∃ a t, x.run s = some (.ok a,t) ∧ (f a).run t = some (.ok b,s') := by
  rw [ShellAct.bind_eq_some]
  exact or_iff_left fun ⟨_,_,he⟩ => nomatch he

theorem map_eq_ok_iff {f : α → β} {b : β} :
    (f <$> x).run s = some (.ok b,s') ↔ ∃ a, x.run s = some (.ok a,s') ∧ b = f a := by
  rw [map_eq_pure_bind,bind_eq_ok_iff]
  simp only [ShellAct.pure_eq_some,Except.ok.injEq]
  constructor
  · rintro ⟨a,t,hx,rfl,rfl⟩
    exact ⟨a,hx,rfl⟩
  · rintro ⟨a,hx,rfl⟩
    exact ⟨a,s',hx,rfl,rfl⟩

end Halted

variable {inner : Reentry κ} {s s₁ s' : Shell κ} {p q : Word.Part} {parts g : List Word.Part}
  {texts : List String} {stop : Option (ShellError × Shell κ)}

theorem fills_cons_iff : inner.Fills s (p :: parts) texts s' ↔ ∃ text t rest,
    (inner.expandPart p).run s = some (.ok text,t) ∧ inner.Fills t parts rest s' ∧
      texts = text :: rest := by
  constructor
  · intro h
    cases h with
    | literal h => exact ⟨_,_,_,rfl,h,rfl⟩
    | parameter hv h =>
      refine ⟨_,_,_,?_,h,rfl⟩
      rw [expandPart_parameter,hv]
    | command hl h =>
      refine ⟨_,_,_,?_,h,rfl⟩
      rw [expandPart_command]
      exact Act.bind_eq_some.2 ⟨_,_,hl,rfl⟩
  · rintro ⟨text,t,rest,hp,h,rfl⟩
    cases p with
    | literal l =>
      obtain ⟨⟨rfl⟩,rfl⟩ := Prod.mk.inj (Option.some.inj hp)
      exact .literal h
    | parameter x =>
      rw [expandPart_parameter] at hp
      split at hp
      · obtain ⟨⟨rfl⟩,rfl⟩ := Prod.mk.inj (Option.some.inj hp)
        exact .parameter ‹_› h
      · cases hp
    | command l =>
      rw [expandPart_command] at hp
      obtain ⟨o,t,hl,hp⟩ := Act.bind_eq_some.1 hp
      obtain ⟨he,rfl⟩ := Act.pure_eq_some.1 hp
      cases o with
      | error e => cases he
      | ok text' =>
        obtain rfl := Except.ok.inj he
        exact .command hl h

theorem fills_nil_iff : inner.Fills s [] texts s' ↔ texts = [] ∧ s = s' := by
  constructor
  · intro h
    cases h
    exact ⟨rfl,rfl⟩
  · rintro ⟨rfl,rfl⟩
    exact .done

theorem Fills.length_eq (h : inner.Fills s parts texts s') : texts.length = parts.length := by
  induction h with
  | done => rfl
  | literal _ ih | parameter _ _ ih | command _ _ ih => rw [List.length_cons,ih,List.length_cons]

theorem fills_append_iff : inner.Fills s (g ++ parts) texts s' ↔ ∃ us vs t,
    inner.Fills s g us t ∧ inner.Fills t parts vs s' ∧ texts = us ++ vs := by
  induction g generalizing s texts with
  | nil => simp [fills_nil_iff]
  | cons p g ih =>
    simp only [List.cons_append,fills_cons_iff,ih]
    constructor
    · rintro ⟨text,t,_,hp,⟨us,vs,u,hu,hv,rfl⟩,rfl⟩
      exact ⟨_,vs,u,⟨text,t,us,hp,hu,rfl⟩,hv,rfl⟩
    · rintro ⟨_,vs,u,⟨text,t,us,hp,hu,rfl⟩,hv,rfl⟩
      exact ⟨text,t,_,hp,⟨us,vs,u,hu,hv,rfl⟩,rfl⟩

theorem mapM_eq_ok_iff :
    (parts.mapM inner.expandPart).run s = some (.ok texts,s') ↔ inner.Fills s parts texts s' := by
  induction parts generalizing s s' texts with
  | nil =>
    rw [List.mapM_nil,ShellAct.pure_eq_some,Except.ok.injEq,fills_nil_iff]
  | cons p parts ih =>
    simp only [List.mapM_cons,bind_eq_ok_iff,ih,ShellAct.pure_eq_some,Except.ok.injEq,
      fills_cons_iff]
    constructor
    · rintro ⟨text,t,hp,rest,u,h,rfl,rfl⟩
      exact ⟨text,t,rest,hp,h,rfl⟩
    · rintro ⟨text,t,rest,hp,h,rfl⟩
      exact ⟨text,t,hp,rest,s',h,rfl,rfl⟩

theorem fillGroups_eq_ok_iff {groups : List (List Word.Part)} {texts : List (List String)} :
    (inner.fillGroups groups).run s = some (.ok texts,s') ↔
      texts.map List.length = groups.map List.length ∧
        inner.Fills s groups.flatten texts.flatten s' := by
  unfold fillGroups
  induction groups generalizing s s' texts with
  | nil =>
    rw [List.mapM_nil,ShellAct.pure_eq_some,Except.ok.injEq,List.flatten_nil,fills_nil_iff]
    cases texts <;> simp
  | cons g groups ih =>
    simp only [List.mapM_cons,bind_eq_ok_iff,mapM_eq_ok_iff,ih,ShellAct.pure_eq_some,
      Except.ok.injEq,List.flatten_cons,fills_append_iff]
    constructor
    · rintro ⟨us,t,hu,vs,u,⟨hlen,hv⟩,rfl,rfl⟩
      exact ⟨by simp [hu.length_eq,hlen],us,vs.flatten,t,hu,hv,rfl⟩
    · rintro ⟨hlen,us,vs,t,hu,hv,he⟩
      obtain ⟨us',vs',rfl⟩ := List.exists_cons_of_ne_nil (l := texts) (by rintro rfl; cases hlen)
      obtain ⟨hhead,htail⟩ := List.cons.inj hlen
      obtain ⟨rfl,rfl⟩ := List.append_inj he (hhead.trans hu.length_eq.symm)
      exact ⟨us',t,hu,vs',s',⟨htail,hv⟩,rfl,rfl⟩

theorem not_reaches_nil : ¬inner.Reaches s [] p s₁ := by
  rintro ⟨before,after,_,he,-⟩
  simp at he

theorem reaches_cons_iff : inner.Reaches s (q :: parts) p s₁ ↔ q = p ∧ s = s₁ ∨
    ∃ text t, (inner.expandPart q).run s = some (.ok text,t) ∧ inner.Reaches t parts p s₁ := by
  constructor
  · rintro ⟨before,after,texts,he,h⟩
    cases before with
    | nil =>
      obtain ⟨rfl,rfl⟩ := fills_nil_iff.1 h
      exact .inl ⟨(List.cons.inj he).1,rfl⟩
    | cons r before =>
      obtain ⟨rfl,rfl⟩ := List.cons.inj he
      obtain ⟨text,t,rest,hq,hrest,-⟩ := fills_cons_iff.1 h
      exact .inr ⟨text,t,hq,before,after,rest,rfl,hrest⟩
  · rintro (⟨rfl,rfl⟩ | ⟨text,t,hq,before,after,rest,rfl,h⟩)
    · exact ⟨[],parts,[],rfl,.done⟩
    · exact ⟨q :: before,after,text :: rest,rfl,fills_cons_iff.2 ⟨text,t,rest,hq,h,rfl⟩⟩

theorem reaches_append_iff : inner.Reaches s (g ++ parts) p s₁ ↔
    inner.Reaches s g p s₁ ∨ ∃ texts t, inner.Fills s g texts t ∧ inner.Reaches t parts p s₁ := by
  induction g generalizing s with
  | nil => simp [not_reaches_nil,fills_nil_iff]
  | cons q g ih =>
    simp only [List.cons_append,reaches_cons_iff,ih,fills_cons_iff]
    constructor
    · rintro (h | ⟨text,t,hq,h | ⟨texts,u,hg,h⟩⟩)
      · exact .inl (.inl h)
      · exact .inl (.inr ⟨text,t,hq,h⟩)
      · exact .inr ⟨_,u,⟨text,t,texts,hq,hg,rfl⟩,h⟩
    · rintro ((h | ⟨text,t,hq,h⟩) | ⟨_,u,⟨text,t,texts,hq,hg,rfl⟩,h⟩)
      · exact .inl h
      · exact .inr ⟨text,t,hq,.inl h⟩
      · exact .inr ⟨text,t,hq,.inr ⟨texts,u,hg,h⟩⟩

theorem pure_ne_halted {α : Type} (a : α) : (pure a : ShellAct κ α).run s ≠ halted stop :=
  ok_ne_halted a

theorem mapM_eq_halted_iff : (parts.mapM inner.expandPart).run s = halted stop ↔
    ∃ p s₁, inner.Reaches s parts p s₁ ∧ (inner.expandPart p).run s₁ = halted stop := by
  induction parts generalizing s with
  | nil => simp only [List.mapM_nil,pure_ne_halted,not_reaches_nil,false_and,exists_false]
  | cons q parts ih =>
    simp only [List.mapM_cons,bind_eq_halted_iff,ih,pure_ne_halted,and_false,exists_false,or_false,
      reaches_cons_iff]
    constructor
    · rintro (h | ⟨text,t,hq,p,s₁,h,hp⟩)
      · exact ⟨q,s,.inl ⟨rfl,rfl⟩,h⟩
      · exact ⟨p,s₁,.inr ⟨text,t,hq,h⟩,hp⟩
    · rintro ⟨p,s₁,⟨rfl,rfl⟩ | ⟨text,t,hq,h⟩,hp⟩
      · exact .inl hp
      · exact .inr ⟨text,t,hq,p,s₁,h,hp⟩

theorem fillGroups_eq_halted_iff {groups : List (List Word.Part)} :
    (inner.fillGroups groups).run s = halted stop ↔
      ∃ p s₁, inner.Reaches s groups.flatten p s₁ ∧ (inner.expandPart p).run s₁ = halted stop := by
  unfold fillGroups
  induction groups generalizing s with
  | nil =>
    simp only [List.mapM_nil,pure_ne_halted,List.flatten_nil,not_reaches_nil,false_and,exists_false]
  | cons g groups ih =>
    simp only [List.mapM_cons,bind_eq_halted_iff,mapM_eq_halted_iff,mapM_eq_ok_iff,ih,
      pure_ne_halted,and_false,exists_false,or_false,List.flatten_cons,reaches_append_iff]
    constructor
    · rintro (⟨p,s₁,h,hp⟩ | ⟨texts,t,hg,p,s₁,h,hp⟩)
      · exact ⟨p,s₁,.inl h,hp⟩
      · exact ⟨p,s₁,.inr ⟨texts,t,hg,h⟩,hp⟩
    · rintro ⟨p,s₁,h | ⟨texts,t,hg,h⟩,hp⟩
      · exact .inl ⟨p,s₁,h,hp⟩
      · exact .inr ⟨texts,t,hg,p,s₁,h,hp⟩

theorem expandPart_eq_error_iff {e : ShellError} :
    (inner.expandPart p).run s = some (.error e,s') ↔ inner.Fails s p e s' := by
  constructor
  · intro h
    cases p with
    | literal text => cases h
    | parameter x =>
      rw [expandPart_parameter] at h
      split at h
      · cases h
      · obtain ⟨⟨rfl⟩,rfl⟩ := Prod.mk.inj (Option.some.inj h)
        exact .parameter ‹_›
    | command line =>
      rw [expandPart_command] at h
      obtain ⟨o,t,hl,h⟩ := Act.bind_eq_some.1 h
      obtain ⟨he,rfl⟩ := Act.pure_eq_some.1 h
      cases o with
      | ok text => cases he
      | error e' =>
        obtain rfl := Except.error.inj he
        exact .command hl
  · intro h
    cases h with
    | parameter hv => rw [expandPart_parameter,hv]
    | command hl =>
      rw [expandPart_command]
      exact Act.bind_eq_some.2 ⟨_,_,hl,rfl⟩

theorem expandPart_eq_none_iff : (inner.expandPart p).run s = none ↔
    ∃ line, p = .command line ∧ (inner.substitute line).run s = none := by
  cases p with
  | literal text => exact iff_of_false nofun nofun
  | parameter x =>
    rw [expandPart_parameter]
    refine iff_of_false (fun h => ?_) nofun
    split at h <;> cases h
  | command line =>
    have hnone : (inner.expandPart (.command line)).run s = none ↔
        (inner.substitute line).run s = none := by
      rw [expandPart_command]
      change ((inner.substitute line).run s).bind _ = none ↔ _
      cases (inner.substitute line).run s with
      | none => exact iff_of_true rfl rfl
      | some r => exact iff_of_false nofun nofun
    simp [hnone]

theorem expand_eq (inner : Reentry κ) (st : Statement) : inner.expand st =
    (fun texts => (texts.map String.join).filter (· ≠ "")) <$> inner.fillGroups st.groups := by
  have h := inner.foldlM_expandFragment st.fragments ⟨[],""⟩
  simp only [wordsAfter_empty,List.nil_append] at h
  rw [Statement.groups,← h,map_eq_pure_bind]
  rfl

/-- Whatever is run by the substitutions of a statement, and whatever they give: its parts are
filled in from left to right, each of them once and after all those before it, and the words are
what stands between two blanks, put together, as far as it is not empty. The first part that fails
is the last that is evaluated, and its error is that of the statement. So no text that is filled in
makes more of one word, or one of two. -/
theorem expand_by_groups (inner : Reentry κ) (st : Statement) (s : Shell κ) :
    (∀ words s', (inner.expand st).run s = some (.ok words,s') ↔ ∃ texts : List (List String),
      texts.map List.length = st.groups.map List.length ∧
        inner.Fills s st.parts texts.flatten s' ∧
        words = (texts.map String.join).filter (· ≠ "")) ∧
    (∀ e s', (inner.expand st).run s = some (.error e,s') ↔
      ∃ p s₁, inner.Reaches s st.parts p s₁ ∧ inner.Fails s₁ p e s') ∧
    ((inner.expand st).run s = none ↔ ∃ line s₁,
      inner.Reaches s st.parts (.command line) s₁ ∧ (inner.substitute line).run s₁ = none) ∧
    st.groups.flatten = st.parts ∧ st.groups.length = st.fragments.count .space + 1 ∧
    ∀ words s', (inner.expand st).run s = some (.ok words,s') →
      words.length ≤ st.groups.length := by
  have hok : ∀ words s', (inner.expand st).run s = some (.ok words,s') ↔
      ∃ texts : List (List String), texts.map List.length = st.groups.map List.length ∧
        inner.Fills s st.parts texts.flatten s' ∧
        words = (texts.map String.join).filter (· ≠ "") := by
    intro words s'
    rw [expand_eq,map_eq_ok_iff]
    simp only [fillGroups_eq_ok_iff,st.flatten_groups,and_assoc]
  have hhalted : ∀ stop, (inner.expand st).run s = halted stop ↔
      ∃ p s₁, inner.Reaches s st.parts p s₁ ∧ (inner.expandPart p).run s₁ = halted stop := by
    intro stop
    rw [expand_eq,map_eq_halted_iff,fillGroups_eq_halted_iff,st.flatten_groups]
  refine ⟨hok,fun e s' => ?_,?_,st.flatten_groups,st.length_groups,fun words s' h => ?_⟩
  · simpa only [halted,Option.map_some,expandPart_eq_error_iff] using hhalted (some (e,s'))
  · have hnone := hhalted none
    simp only [halted,Option.map_none,expandPart_eq_none_iff] at hnone
    rw [hnone]
    constructor
    · rintro ⟨_,s₁,h,line,rfl,hl⟩
      exact ⟨line,s₁,h,hl⟩
    · rintro ⟨line,s₁,h,hl⟩
      exact ⟨_,s₁,h,line,rfl,hl⟩
  · obtain ⟨texts,hlen,-,rfl⟩ := (hok words s').1 h
    have hcount : texts.length = st.groups.length := by simpa using congrArg List.length hlen
    calc ((texts.map String.join).filter (· ≠ "")).length ≤ (texts.map String.join).length :=
        List.length_filter_le _ _
      _ = texts.length := List.length_map _
      _ = st.groups.length := hcount

def setting : Statement :=
  ⟨[.plain "x$(set A ' b; c  #')$A",.space,.quoted "$A",.verbatim "$A",.space,
    .plain "$B$(set A '')"]⟩

def blankSession : Shell Builtin := ⟨.withBuiltins id,.empty,Session.opened (.opened [])⟩

/-- The third group is empty, and the text of the variable makes no words of its own. -/
theorem expand_by_groups_setting :
    ∃ s' texts, ((Engine.ofBuiltins.reentry 9).expand setting).run blankSession =
        some (.ok ["x b; c  #"," b; c  #$A"],s') ∧
      (Engine.ofBuiltins.reentry 9).Fills blankSession setting.parts (List.flatten texts) s' ∧
      ["x b; c  #"," b; c  #$A"] = (texts.map String.join).filter (· ≠ "") ∧
      s'.session.environment.get? "A" = some "" ∧ setting.groups.length = 3 := by
  have hend : (((Engine.ofBuiltins.reentry 9).expand setting).run blankSession).map
      (fun r => (r.1.toOption,r.2.session.environment.get? "A")) =
        some (some ["x b; c  #"," b; c  #$A"],some "") := by decide +kernel
  obtain ⟨⟨o,s'⟩,hrun,ho⟩ := Option.map_eq_some_iff.1 hend
  obtain ⟨ho,hA⟩ := Prod.mk.inj ho
  cases o with
  | error e => cases ho
  | ok words =>
    obtain rfl := Option.some.inj ho
    obtain ⟨hok,-,-,-,hcount,-⟩ :=
      expand_by_groups (Engine.ofBuiltins.reentry 9) setting blankSession
    obtain ⟨texts,-,hfills,hwords⟩ := (hok _ s').1 hrun
    exact ⟨s',texts,hrun,hfills,hwords,hA,hcount⟩

end Reentry
end CommandShell
