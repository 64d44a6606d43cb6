import CommandShell.Proofs.Alias.Words
import CommandShell.Proofs.Registry.Still
import CommandShell.Proofs.Run.Termination

/-! Chains of aliases.
The first word of an alias may be an alias again. Each expansion leaves the words of its text behind
it in front of the arguments, one level deeper, and what is called in the end does not depend on how
deep it is called. -/
namespace CommandShell

variable {κ : Type}

namespace AliasTable

def wordsOf (t : AliasTable) (name : String) : List String :=
  ((t.get? name).map Alias.words).getD []

/-- The first word of the text, then the first word of the text of that, and so on. -/
def chain (t : AliasTable) (name : String) : Nat → String
  | 0 => name
  | i + 1 => (t.wordsOf (t.chain name i)).headD ""

/-- The other words of the first texts of the chain, those of the last one first, and then the
arguments. -/
def gathered (t : AliasTable) (name : String) (args : List String) : Nat → List String
  | 0 => args
  | i + 1 => (t.wordsOf (t.chain name i)).tail ++ t.gathered name args i

variable (t : AliasTable)

theorem chain_succ (name : String) (i : Nat) :
    t.chain name (i + 1) = t.chain (t.chain name 1) i := by
  induction i with
  | zero => rfl
  | succ i ih =>
    rw [chain,ih]
    rfl

theorem gathered_succ (name : String) (args : List String) (i : Nat) :
    t.gathered name args (i + 1) =
      t.gathered (t.chain name 1) ((t.wordsOf name).tail ++ args) i := by
  induction i with
  | zero => rfl
  | succ i ih => rw [gathered,ih,gathered,← chain_succ]

/-- So many names of the chain, from its beginning on, are aliases. -/
def Links (name : String) (n : Nat) : Prop := ∀ i < n, (t.get? (t.chain name i)).isSome

instance (name : String) (n : Nat) : Decidable (t.Links name n) :=
  inferInstanceAs (Decidable (∀ i < n, (t.get? (t.chain name i)).isSome))

variable {t}

theorem Links.head {name : String} {n : Nat} (h : t.Links name (n + 1)) : (t.get? name).isSome :=
  h 0 (Nat.succ_pos n)

theorem Links.tail {name : String} {n : Nat} (h : t.Links name (n + 1)) :
    t.Links (t.chain name 1) n := by
  intro i hi
  rw [← chain_succ]
  exact h (i + 1) (Nat.succ_lt_succ hi)

end AliasTable

namespace Shell

variable {s u v : Shell κ} {d : Nat}

def atDepth (s : Shell κ) (d : Nat) : Shell κ := s.attuned id fun _ => d

theorem atDepth_self (s : Shell κ) : s.atDepth s.session.aliasDepth = s := rfl

@[simp] theorem synced_synced (s : Shell κ) : s.synced.synced = s.synced := by
  simp [synced]

theorem resolve_synced (s : Shell κ) (path : String) : s.synced.resolve path = s.resolve path := by
  simp [resolve,synced]

theorem resolve_of_get? {name text : String} (h : s.session.aliases.get? name = some text) :
    s.resolve name = .ok (.aliased ⟨name,text⟩) := by
  simp [resolve,Session.resolve,Resolution.find?,h]

theorem get?_of_resolve {name : String} {a : Alias} (h : s.resolve name = .ok (.aliased a)) :
    (s.session.aliases.get? name).isSome := by
  have hnode : ∀ (t : Tree (Registered κ)) id, Resolution.ofNode? t id ≠ some (.aliased a) := by
    intro t id hn
    obtain ⟨node,-,he⟩ := Option.map_eq_some_iff.1 hn
    split at he <;> cases he
  rw [Option.isSome_iff_ne_none]
  intro hnone
  unfold resolve Session.resolve Resolution.find? at h
  rw [hnone] at h
  simp only [Resolution.within?] at h
  split at h
  · rename_i found hfound
    obtain rfl := Except.ok.inj h
    split at hfound
    · cases hfound
    · split_ifs at hfound
      · obtain ⟨id,-,hid⟩ := Option.bind_eq_some_iff.1 hfound
        exact hnode _ _ hid
      · obtain ⟨entry,-,hentry⟩ := List.exists_of_findSome?_eq_some hfound
        obtain ⟨base,-,hbase⟩ := Option.bind_eq_some_iff.1 hentry
        split_ifs at hbase
        obtain ⟨id,-,hid⟩ := Option.bind_eq_some_iff.1 hbase
        exact hnode _ _ hid
  · cases h

/-- But for the number of aliases being expanded the shell is `v`, once its tree is up to date. -/
def Reads (v : Shell κ) (d : Nat) (u : Shell κ) : Prop := u.synced = v.atDepth d

theorem Reads.resolve (hu : v.Reads d u) (path : String) : u.resolve path = v.resolve path := by
  rw [← resolve_synced,hu]
  rfl

theorem Reads.aliases (hu : v.Reads d u) : u.session.aliases = v.session.aliases :=
  congrArg (·.session.aliases) hu

theorem Reads.config (hu : v.Reads d u) : u.session.config = v.session.config :=
  congrArg (·.session.config) hu

theorem Reads.depth (hu : v.Reads d u) : u.session.aliasDepth = d :=
  congrArg (·.session.aliasDepth) hu

theorem Reads.deeper (hu : v.Reads d u) : v.Reads (d + 1) u.synced.deeper := by
  have h : u.synced.deeper.synced = u.synced.synced.deeper := rfl
  rw [Reads,h,synced_synced,hu]
  rfl

end Shell

namespace Engine

variable {engine : Engine κ} {u v : Shell κ} {d : Nat}

/-- A program that runs nothing else does the same at every depth. -/
theorem exists_perform_program (engine : Engine κ) {p : Program κ Value} (hp : p.Direct)
    (s : Shell κ) : ∃ (result : Except Failure Value) (t : Shell κ), ∀ inner d,
      engine.perform inner (.program p) (s.atDepth d) = some (.ok result,t.atDepth d) := by
  induction p generalizing s with
  | done v => exact ⟨_,s,fun _ _ => rfl⟩
  | fail f => exact ⟨_,s,fun _ _ => rfl⟩
  | ask r next ih =>
    obtain ⟨a,s',ha⟩ : ∃ a s', engine.answer (engine.reentry 0) r s = some (a,s') :=
      exists_answer hp.1 s
    obtain ⟨result,t,h⟩ := ih a (hp.2 a) s'
    refine ⟨result,t,fun inner d => perform_ask ?_ (h inner d)⟩
    have hanswer : engine.answer inner r = engine.answer (engine.reentry 0) r :=
      answer_direct hp.1
    rw [hanswer,Shell.atDepth,answer_attuned _ hp.1,ha]
    rfl

theorem Outright.atDepth {path : String} {args : List String} {o : Except ShellError Value}
    {t : Shell κ} (h : engine.Outright path args v o t) (hv : v.synced = v) (hu : v.Reads d u) :
    engine.Outright path args u o (t.atDepth d) := by
  have hconsole : u.session.console = v.session.console := congrArg (·.session.console) hu
  cases h with
  | unresolved h =>
    rw [hv,← hu]
    exact .unresolved ((hu.resolve path).trans h)
  | group h =>
    rw [hv,← hu]
    exact .group ((hu.resolve path).trans h)
  | usage h hb he =>
    rw [hv,← hu]
    exact .usage ((hu.resolve path).trans h) hb he
  | helped h hb he hw =>
    have houtright := Outright.helped ((hu.resolve path).trans h) hb he (hconsole ▸ hw)
    rw [hu] at houtright
    rw [hv]
    exact houtright
  | unhelped h hb he hw =>
    rw [hv,← hu]
    exact .unhelped ((hu.resolve path).trans h) hb he (hconsole ▸ hw)

theorem exists_perform_call (engine : Engine κ) {path : String} (args : List String)
    (hv : v.synced = v) (halias : v.session.aliases.get? path = none)
    (hdirect : ∀ p r, v.resolve path = .ok (.command p r) →
      (engine.command r.descriptor.action).Direct) :
    ∃ (o : Except ShellError Value) (t : Shell κ), ∀ inner d u, v.Reads d u →
        engine.perform inner (.call path args) u = some (o,t.atDepth d) := by
  obtain ⟨o,t,h⟩ | ⟨a,h⟩ | ⟨p,r,body,hr,hb⟩ := engine.call_cases path args v
  · exact ⟨o,t,fun inner d u hu => perform_outright (h.atDepth hv hu)⟩
  · have hsome := Shell.get?_of_resolve h
    simp [halias] at hsome
  · obtain ⟨result,t,h⟩ := engine.exists_perform_program (hdirect p r hr _ _ _ hb ⟨path,args⟩) v
    refine ⟨result.mapError (·.raise path args),t,fun inner d u hu => ?_⟩
    refine perform_ran ((hu.resolve path).trans hr) hb ?_
    rw [hu]
    exact h inner d

variable {a : Alias} {h : String} {rest args : List String} {w t : Shell κ} {n : Nat}
  {o : Except ShellError Value}

/-- The line of an alias of plain words does what its first word does, called with its other words
and the arguments. -/
theorem perform_line_expand (ha : Alias.Plain a.text) (hwords : Alias.words a.text = h :: rest)
    (hargs : ∀ arg ∈ args, arg ≠ "") (hstop : w.session.config.onError = .stop)
    (hrun : engine.perform (engine.reentry n) (.call h (rest ++ args)) w = some (o,t)) :
    engine.perform (engine.reentry n) (.line (a.expand args)) w = some (o.map some,t) := by
  obtain ⟨st,hparse,-,hexpand⟩ := ha.parse_expand args
  obtain ⟨τ,hcourse⟩ := engine.follows_perform n _ _ _ _ hrun
  have hpolicy : t.session.config.onError = .stop := by rw [hcourse.level.config,hstop]
  have hfilter : args.filter (· ≠ "") = args := List.filter_eq_self.2 (by simpa using hargs)
  have hstatement : engine.perform (engine.reentry n) (.statement st) w = some (o.map some,t) := by
    simp only [perform,runStatement,hexpand,hwords,hfilter,pure_bind,List.cons_append]
    cases o with
    | ok v => exact ShellAct.bind_eq_some.2 (.inl ⟨v,t,hrun,rfl⟩)
    | error e => exact ShellAct.bind_eq_some.2 (.inr ⟨e,hrun,rfl⟩)
  have hline : engine.perform (engine.reentry n) (.line (a.expand args)) w =
      engine.perform (engine.reentry n) (.statements none [st]) w := by
    simp only [perform,runLine,hparse]
  rw [hline]
  cases o with
  | ok v => exact perform_statements_ok (nextStatement_ok hstatement) rfl
  | error e =>
    refine perform_statements_error (nextStatement_stopped hstatement ?_)
    simp [hpolicy]

/-- To call an alias of plain words is to call its first word, one level deeper. -/
theorem perform_link {name text : String} (hget : w.session.aliases.get? name = some text)
    (htext : Alias.Plain text) (hwords : Alias.words text = h :: rest)
    (hargs : ∀ arg ∈ args, arg ≠ "") (hstop : w.session.config.onError = .stop)
    (hdepth : w.session.aliasDepth < w.session.config.maxAliasDepth)
    (hrun : engine.perform (engine.reentry n) (.call h (rest ++ args)) w.synced.deeper =
      some (o,t)) :
    engine.perform (engine.reentry (n + 1)) (.call name args) w = some (o,t.shallower) := by
  have hline : ((engine.reentry (n + 1)).execute ((⟨name,text⟩ : Alias).expand args)).run
      w.synced.deeper = some (o.map some,t) :=
    perform_line_expand (a := ⟨name,text⟩) htext hwords hargs hstop hrun
  have hexpansion : engine.perform (engine.reentry (n + 1))
      (.expansion name ((⟨name,text⟩ : Alias).expand args)) w.synced =
        some (o.map some,t.shallower) := perform_expansion hdepth hline
  rw [perform_aliased (Shell.resolve_of_get? hget) hexpansion]
  cases o <;> rfl

theorem perform_refused {name text : String} (hget : w.session.aliases.get? name = some text)
    (hfull : w.session.config.maxAliasDepth ≤ w.session.aliasDepth) {inner : Reentry κ} :
    engine.perform inner (.call name args) w =
      some (.error (.aliasDepthExceeded name w.session.config.maxAliasDepth),w.synced) :=
  perform_aliased (Shell.resolve_of_get? hget)
    (executeAlias_of_le inner name _ (s := w.synced) hfull)

theorem ne_empty_of_mem_words {text w : String} (hw : w ∈ Alias.words text) : w ≠ "" := by
  obtain ⟨cs,hcs,rfl⟩ := List.mem_map.1 hw
  have hne : cs ≠ [] := by simpa using (List.mem_filter.1 hcs).2
  simpa [← String.toList_inj] using hne

theorem exists_words {t : AliasTable} (hplain : ∀ name text, t.get? name = some text →
    Alias.Plain text) {name : String} (halias : (t.get? name).isSome) : ∃ text h rest,
      t.get? name = some text ∧ Alias.Plain text ∧ Alias.words text = h :: rest ∧
        (∀ w ∈ rest, w ≠ "") ∧ t.chain name 1 = h ∧ (t.wordsOf name).tail = rest := by
  obtain ⟨text,hget⟩ := Option.isSome_iff_exists.1 halias
  obtain ⟨h,rest,hwords⟩ := List.exists_cons_of_ne_nil (hplain name text hget).nonempty
  refine ⟨text,h,rest,hget,hplain name text hget,hwords,fun w hw => ?_,?_,?_⟩
  · have hmem : w ∈ Alias.words text := hwords ▸ List.mem_cons_of_mem h hw
    exact ne_empty_of_mem_words hmem
  · simp [AliasTable.chain,AliasTable.wordsOf,hget,hwords]
  · simp [AliasTable.wordsOf,hget,hwords]

section Chain

variable (hplain : ∀ name text, v.session.aliases.get? name = some text → Alias.Plain text)
  (hstop : v.session.config.onError = .stop)

include hplain hstop

/-- To call the beginning of a chain is to call its end, as many levels deeper as there are aliases
before it. -/
theorem perform_chain {k : Nat} {name : String} (hu : v.Reads d u) (hargs : ∀ arg ∈ args, arg ≠ "")
    (hlimit : d + k ≤ v.session.config.maxAliasDepth)
    (halias : v.session.aliases.Links name k)
    (hend : ∀ inner u, v.Reads (d + k) u → engine.perform inner
      (.call (v.session.aliases.chain name k) (v.session.aliases.gathered name args k)) u =
        some (o,t.atDepth (d + k))) (n : Nat) :
    engine.perform (engine.reentry (n + k)) (.call name args) u = some (o,t.atDepth d) := by
  induction k generalizing name args d u with
  | zero => exact hend _ u hu
  | succ k ih =>
    obtain ⟨text,h,rest,hget,htext,hwords,hrest,rfl,rfl⟩ := exists_words hplain halias.head
    rw [← Nat.add_assoc,Nat.add_right_comm d k 1] at hlimit hend
    have hnext := ih hu.deeper (List.forall_mem_append.2 ⟨hrest,hargs⟩) hlimit halias.tail
      (by rwa [← AliasTable.chain_succ,← AliasTable.gathered_succ])
    exact perform_link (hu.aliases ▸ hget) htext hwords hargs (hu.config ▸ hstop)
      (by rw [hu.config,hu.depth]; omega) hnext

theorem perform_overflow {k : Nat} {name : String} (hu : v.Reads d u)
    (hargs : ∀ arg ∈ args, arg ≠ "") (hlimit : d + k = v.session.config.maxAliasDepth)
    (halias : v.session.aliases.Links name (k + 1)) (n : Nat) :
    engine.perform (engine.reentry (n + k)) (.call name args) u =
      some (.error (.aliasDepthExceeded (v.session.aliases.chain name k)
        v.session.config.maxAliasDepth),v.atDepth d) := by
  refine perform_chain hplain hstop hu hargs hlimit.le
    (fun i hi => halias i (hi.trans k.lt_succ_self)) ?_ n
  intro inner w hw
  obtain ⟨text,hget⟩ := Option.isSome_iff_exists.1 (halias k k.lt_succ_self)
  have hget' : w.session.aliases.get? (v.session.aliases.chain name k) = some text := by
    rw [hw.aliases,hget]
  rw [perform_refused hget' (by rw [hw.config,hw.depth,hlimit]),hw.config,hw]

end Chain

end Engine

def Happening.Expands (s : Shell κ) : Happening κ → Prop
  | .line _ | .statement _ | .raised _ => True
  | .call path _ => (s.session.aliases.get? path).isSome
  | .request _ | .ended _ _ _ _ | .reported _ => False

def Moment.Expands (m : Moment κ) : Prop :=
  (∀ f ∈ m.around, ∃ name line, f = .expansion name line) ∧ m.what.Expands m.shell

theorem Moment.expands_now {s : Shell κ} {h : Happening κ} (hh : h.Expands s) :
    (Moment.now s h).Expands := ⟨List.forall_mem_nil _,hh⟩

theorem Moment.Expands.inside {m : Moment κ} (h : m.Expands) (name line : String) :
    (m.inside (.expansion name line)).Expands :=
  ⟨List.forall_mem_cons.2 ⟨⟨name,line,rfl⟩,h.1⟩,h.2⟩

namespace Engine

variable {engine : Engine κ} {s s' : Shell κ} {τ : List (Moment κ)}

theorem Runs.eq_nil_of_literal_parts {parts : List Word.Part}
    (hparts : ∀ p ∈ parts, ∃ text, p = .literal text) {x : Except Halt (List String)}
    (h : engine.Runs (.parts parts) s τ x s') : τ = [] := by
  induction parts generalizing x with
  | nil => cases h <;> rfl
  | cons p parts ih =>
    obtain ⟨⟨text,rfl⟩,hrest⟩ := List.forall_mem_cons.1 hparts
    cases h with
    | cut => rfl
    | literal h => exact ih hrest h

theorem Runs.eq_nil_of_literal {rest : List Fragment} (hrest : ∀ f ∈ rest, f.Literal)
    {a : Reentry.Assembly} {x : Except Halt Reentry.Assembly}
    (h : engine.Runs (.fragments a rest) s τ x s') : τ = [] := by
  induction rest generalizing a s τ with
  | nil => cases h <;> rfl
  | cons f rest ih =>
    obtain ⟨hf,htail⟩ := List.forall_mem_cons.1 hrest
    have hparts : ∀ text, f = .plain text ∨ f = .quoted text →
        ∀ p ∈ Word.split text, ∃ l, p = .literal l := by
      rintro text hf'
      have hdollar : '$' ∉ text.toList := by rcases hf' with rfl | rfl <;> exact hf
      rw [Word.split,Word.cut_eq_of_notMem _ _ hdollar,Word.withLiteral]
      split_ifs <;> simp
    cases h with
    | cut => rfl
    | space h | verbatim h => exact ih htail h
    | text htext h hr =>
      rw [h.eq_nil_of_literal_parts (hparts _ htext),ih htail hr]
      rfl
    | textFailed htext h => exact h.eq_nil_of_literal_parts (hparts _ htext)

variable {path : String} {args : List String}

/-- A statement of known words calls the first of them, and does nothing else. -/
theorem Runs.expands_statement {st : Statement} (hst : ∀ f ∈ st.fragments, f.Literal)
    (hexpand : ∀ inner : Reentry κ, inner.expand st = pure (path :: args))
    (hcall : ∀ τ x s', engine.Runs (.call path args) s τ x s' → ∀ m ∈ τ, m.Expands)
    {x : Except Halt (Option Value)} (h : engine.Runs (.statement st) s τ x s') :
    ∀ m ∈ τ, m.Expands := by
  have hnow : (Moment.now s (.statement st)).Expands := Moment.expands_now trivial
  have hwords : ∀ {τ a u}, engine.Runs (.fragments ⟨[],""⟩ st.fragments) s τ (.ok a) u →
      a.flush.words = path :: args ∧ u = s := by
    intro τ a u hf
    obtain ⟨n,hn⟩ := hf.reached.ok.exists
    have hrun : ((engine.reentry n).expand st).run s = some (.ok a.flush.words,u) :=
      ShellAct.bind_eq_some.2 (.inl ⟨a,u,hn,rfl⟩)
    rw [hexpand] at hrun
    obtain ⟨hok,rfl⟩ := ShellAct.pure_eq_some.1 hrun
    exact ⟨Except.ok.inj hok,rfl⟩
  cases h with
  | cut => simp
  | unexpanded h =>
    rw [h.eq_nil_of_literal hst]
    simpa using hnow
  | blank h ha => cases ha.symm.trans (hwords h).1
  | called h ha hc =>
    obtain ⟨he,rfl⟩ := hwords h
    obtain ⟨rfl,rfl⟩ := List.cons.inj (ha.symm.trans he)
    rw [h.eq_nil_of_literal hst]
    exact List.forall_mem_cons.2 ⟨hnow,hcall _ _ _ hc⟩

theorem Runs.expands_line {l : String} {st : Statement} (hparse : Line.parse l = .ok ⟨[st]⟩)
    (hst : ∀ f ∈ st.fragments, f.Literal)
    (hexpand : ∀ inner : Reentry κ, inner.expand st = pure (path :: args))
    (hstop : s.session.config.onError = .stop)
    (hcall : ∀ τ x s', engine.Runs (.call path args) s τ x s' → ∀ m ∈ τ, m.Expands)
    {x : Except Halt (Option Value)} (h : engine.Runs (.line l) s τ x s') :
    ∀ m ∈ τ, m.Expands := by
  have hpasses : ∀ {τ e s'}, engine.Runs (.statement st) s τ (.error (.failed e)) s' →
      ¬(Halt.failed e).Passes s'.session.config := by
    intro τ e s' h hx
    have hgoes := hx.1
    rw [h.level.config,hstop] at hgoes
    cases hgoes
  cases h with
  | cut => simp
  | unfinished h => cases hparse.symm.trans h
  | parsed hp h =>
    obtain rfl := Except.ok.inj (hparse.symm.trans hp)
    refine List.forall_mem_cons.2 ⟨Moment.expands_now trivial,?_⟩
    cases h with
    | cut => simp
    | next h hr =>
      have hnil := h.expands_statement hst hexpand hcall
      cases hr <;> simpa using hnil
    | stopped h => exact h.expands_statement hst hexpand hcall
    | reported h hx | unreported h hx => exact (hpasses h hx).elim

theorem Runs.expands_call {text : String} (hget : s.session.aliases.get? path = some text)
    (hline : s.session.aliasDepth < s.session.config.maxAliasDepth → ∀ τ x s',
      engine.Runs (.line ((⟨path,text⟩ : Alias).expand args)) s.synced.deeper τ x s' →
        ∀ m ∈ τ, m.Expands)
    {x : Except Halt Value} (h : engine.Runs (.call path args) s τ x s') :
    ∀ m ∈ τ, m.Expands := by
  have hresolve := Shell.resolve_of_get? hget
  have hnow : (Moment.now s (.call path args)).Expands :=
    Moment.expands_now (Option.isSome_of_mem hget)
  have houtright : ∀ {o s'}, ¬engine.Outright path args s o s' := by
    intro o s' ho
    cases ho <;> cases hresolve.symm.trans ‹_›
  cases h with
  | cut => simp
  | outright h | outrightFailed h => exact (houtright h).elim
  | ran h | ranCut h => cases hresolve.symm.trans h
  | aliased h he =>
    cases hresolve.symm.trans h
    refine List.forall_mem_cons.2 ⟨hnow,?_⟩
    cases he with
    | cut => simp
    | refused h => exact List.forall_mem_singleton.2 (Moment.expands_now trivial)
    | expanded h hl => exact List.forall_mem_map.2 fun m hm => (hline h _ _ _ hl m hm).inside _ _

/-- Where a chain goes on at the limit, nothing happens but that its aliases are expanded. -/
theorem Runs.expands_chain {u v : Shell κ} {d k : Nat} {name : String}
    (hplain : ∀ name text, v.session.aliases.get? name = some text → Alias.Plain text)
    (hstop : v.session.config.onError = .stop) (hu : v.Reads d u) (hargs : ∀ arg ∈ args, arg ≠ "")
    (hlimit : d + k = v.session.config.maxAliasDepth)
    (halias : v.session.aliases.Links name (k + 1))
    {x : Except Halt Value} (h : engine.Runs (.call name args) u τ x s') :
    ∀ m ∈ τ, m.Expands := by
  induction k generalizing name args d u τ x s' with
  | zero =>
    obtain ⟨text,hget⟩ := Option.isSome_iff_exists.1 halias.head
    refine h.expands_call (hu.aliases ▸ hget) fun hlt => ?_
    rw [hu.config,hu.depth] at hlt
    omega
  | succ k ih =>
    obtain ⟨text,h,rest,hget,htext,hwords,hrest,rfl,rfl⟩ := exists_words hplain halias.head
    have hfilter : args.filter (· ≠ "") = args := List.filter_eq_self.2 (by simpa using hargs)
    obtain ⟨st,hparse,hst,hexpand⟩ := Alias.Plain.parse_expand (a := ⟨name,text⟩) htext args
    simp only [hwords,hfilter,List.cons_append] at hexpand
    refine h.expands_call (hu.aliases ▸ hget) fun _ τ x s' hl => ?_
    refine hl.expands_line hparse hst hexpand (hu.deeper.config ▸ hstop) fun τ x s' hc => ?_
    exact ih hu.deeper (List.forall_mem_append.2 ⟨hrest,hargs⟩) (by omega) halias.tail hc

/-- Aliases of plain words, none of them being expanded yet, where errors end a line: if the chain
of a name ends within the limit, calling the name is calling the end of the chain, with the words
that were left behind in front of the arguments; if it goes on, the alias at the limit is refused,
and no command has been run. -/
theorem alias_chain (engine : Engine κ) (s : Shell κ)
    (hplain : ∀ name text, s.session.aliases.get? name = some text → Alias.Plain text)
    (hstop : s.session.config.onError = .stop) (hdepth : s.session.aliasDepth = 0)
    (name : String) (args : List String) (hargs : ∀ arg ∈ args, arg ≠ "") :
    (∀ k ≤ s.session.config.maxAliasDepth,
      s.session.aliases.Links name k →
      s.session.aliases.get? (s.session.aliases.chain name k) = none →
      (∀ p r, s.resolve (s.session.aliases.chain name k) = .ok (.command p r) →
        (engine.command r.descriptor.action).Direct) →
      ∃ (o : Except ShellError Value) (s' : Shell κ),
        (∀ n > k, ((engine.reentry n).run name args).run s = some (o,s')) ∧
        ∀ n > 0, ((engine.reentry n).run (s.session.aliases.chain name k)
          (s.session.aliases.gathered name args k)).run s = some (o,s')) ∧
    (s.session.aliases.Links name (s.session.config.maxAliasDepth + 1) →
      (∀ n > s.session.config.maxAliasDepth, ((engine.reentry n).run name args).run s =
        some (.error (.aliasDepthExceeded
          (s.session.aliases.chain name s.session.config.maxAliasDepth)
          s.session.config.maxAliasDepth),s.synced)) ∧
      ∀ τ x s', engine.Runs (.call name args) s τ x s' → ∀ m ∈ τ, m.Expands) := by
  have hself : s.synced.atDepth 0 = s.synced := by
    have h := s.synced.atDepth_self
    rwa [show s.synced.session.aliasDepth = 0 from hdepth] at h
  have hs : s.synced.Reads 0 s := hself.symm
  refine ⟨fun k hk halias hend hdirect => ?_,fun halias => ⟨fun n hn => ?_,?_⟩⟩
  · obtain ⟨o,t,ho⟩ := engine.exists_perform_call
      (s.session.aliases.gathered name args k) s.synced_synced hend
      (fun p r hr => hdirect p r ((s.resolve_synced _).symm.trans hr))
    refine ⟨o,t.atDepth 0,fun n hn => ?_,fun n hn => ?_⟩
    · obtain ⟨n,rfl⟩ := Nat.exists_eq_add_of_lt hn
      rw [Nat.add_comm k n]
      exact perform_chain (v := s.synced) hplain hstop hs hargs (by rwa [Nat.zero_add])
        halias (fun inner u hu => ho inner _ u hu) n
    · obtain ⟨n,rfl⟩ := Nat.exists_eq_add_of_lt hn
      exact ho _ 0 s hs
  · obtain ⟨n,rfl⟩ := Nat.exists_eq_add_of_lt hn
    rw [Nat.add_comm _ n]
    have hover : engine.perform (engine.reentry (n + s.session.config.maxAliasDepth))
        (.call name args) s = _ :=
      perform_overflow (v := s.synced) hplain hstop hs hargs (Nat.zero_add _) halias n
    rwa [hself] at hover
  · intro τ x s' h
    exact h.expands_chain (v := s.synced) hplain hstop hs hargs (Nat.zero_add _) halias

def chained : Shell Builtin :=
  let session := Session.opened (.opened [])
  { kernel := .withBuiltins id
    disk := .empty
    session := { session with
      aliases := .ofList [("greet","say  hello"),("say","echo -n"),("ping","pong a"),
        ("pong","ping b")]
      config := ⟨2,.stop,""⟩ } }

theorem plain_chained {name text : String} (h : chained.session.aliases.get? name = some text) :
    Alias.Plain text := by
  simp only [chained,AliasTable.ofList,List.foldl,AliasTable.get?_define] at h
  split_ifs at h
  case neg => cases h
  all_goals
    obtain rfl := Option.some.inj h
    exact ⟨by decide,by decide,by simp [Alias.isSpecial]⟩

/-- The one chain ends within the limit, and the other one is a cycle. -/
theorem alias_chain_chained :
    (∃ o s', o.isOk = true ∧ s'.session.console.output = Text.encode "hello w  x" ∧
      (∀ n > 2, ((ofBuiltins.reentry n).run "greet" ["w  x"]).run chained = some (o,s')) ∧
      ∀ n > 0, ((ofBuiltins.reentry n).run "echo" ["-n","hello","w  x"]).run chained =
        some (o,s')) ∧
    (∀ n > 2, ((ofBuiltins.reentry n).run "ping" ["c"]).run chained =
      some (.error (.aliasDepthExceeded "ping" 2),chained.synced)) ∧
    ∀ τ x s', ofBuiltins.Runs (.call "ping" ["c"]) chained τ x s' → ∀ m ∈ τ, m.Expands := by
  obtain ⟨hends,-⟩ := alias_chain ofBuiltins chained (fun _ _ => plain_chained) rfl rfl "greet"
    ["w  x"] (by decide)
  obtain ⟨-,hcycle⟩ := alias_chain ofBuiltins chained (fun _ _ => plain_chained) rfl rfl "ping"
    ["c"] (by decide)
  obtain ⟨o,s',hgreet,hecho⟩ := hends 2 le_rfl (by decide +kernel) (by decide +kernel)
    fun _ r _ => r.descriptor.action.direct_command
  obtain ⟨hping,hruns⟩ := hcycle (by decide +kernel)
  have hwrites : (((ofBuiltins.reentry 1).run "echo" ["-n","hello","w  x"]).run chained).map
      (fun r => (r.1.isOk,r.2.session.console.output)) =
        some (true,Text.encode "hello w  x") := by decide +kernel
  have hone : ((ofBuiltins.reentry 1).run "echo" ["-n","hello","w  x"]).run chained =
    some (o,s') := hecho 1 Nat.one_pos
  rw [hone] at hwrites
  obtain ⟨hok,houtput⟩ := Prod.mk.inj (Option.some.inj hwrites)
  exact ⟨⟨o,s',hok,houtput,hgreet,hecho⟩,hping,hruns⟩

end Engine
end CommandShell
