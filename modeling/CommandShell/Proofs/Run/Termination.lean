import CommandShell.Proofs.Run.Errors
import CommandShell.Proofs.Run.Sequence
import CommandShell.Proofs.Substitution.Extent

/-! Every line comes to its end.
A line runs lines of two kinds: expansions, which may be longer but leave fewer aliases to be
expanded inside, and substitutions, which are shorter. Output and arguments are never run. -/
namespace CommandShell

variable {κ : Type}

/-- How many aliases may still be expanded inside one another. -/
def Shell.budget (s : Shell κ) : Nat := s.session.config.maxAliasDepth - s.session.aliasDepth

namespace Engine

variable {engine : Engine κ} {s s' : Shell κ}

/-- The task can take a course to its end. -/
inductive Finishes (engine : Engine κ) (t : Task κ) (s : Shell κ) : Prop
  | ok {τ v s'} (h : engine.Runs t s τ (.ok v) s')
  | failed {τ e s'} (h : engine.Runs t s τ (.error (.failed e)) s')

/-- The task finishes from wherever it is taken up on the level of `s`. -/
def FinishesOn (engine : Engine κ) (t : Task κ) (s : Shell κ) : Prop :=
  ∀ s', s.Level s' → engine.Finishes t s'

theorem exists_answer {inner : Reentry κ} {r : Request κ} (hr : r.Direct) (s : Shell κ) :
    ∃ a s', engine.answer inner r s = some (a,s') := by
  cases r with
  | execute l => exact hr.elim
  | run path args => exact hr.elim
  | executeAlias name l => exact hr.elim
  | write channel bytes =>
    simp only [answer,Act.write]
    split <;> exact ⟨_,_,rfl⟩
  | register d =>
    simp only [answer,Act.register]
    split <;> exact ⟨_,_,rfl⟩
  | unregister name =>
    simp only [answer,Act.unregister]
    split <;> exact ⟨_,_,rfl⟩
  | launch file args bindings =>
    simp only [answer,Act.launch]
    split <;> exact ⟨_,_,rfl⟩
  | _ => exact ⟨_,_,rfl⟩

theorem exists_runs_program (engine : Engine κ) {p : Program κ Value} (hp : p.Direct)
    (s : Shell κ) : ∃ τ result s', engine.Runs (.program p) s τ (.ok result) s' := by
  induction p generalizing s with
  | done v => exact ⟨_,_,_,.finished⟩
  | fail f => exact ⟨_,_,_,.failed⟩
  | ask r next ih =>
    obtain ⟨a,s',ha⟩ := exists_answer hp.1 s
    obtain ⟨τ,result,s'',h⟩ := ih a (hp.2 a) s'
    exact ⟨_,_,_,.answered hp.1 ha h⟩

theorem finishes_substitution {l : String} (h : engine.Finishes (.line l) s.capture) :
    engine.Finishes (.substitution l) s := by
  cases h with
  | ok h => exact .ok (.captured h)
  | failed h => exact .failed (.captured h)

theorem finishes_parts {rest : List Word.Part}
    (h : ∀ l, .command l ∈ rest → engine.FinishesOn (.substitution l) s) :
    engine.FinishesOn (.parts rest) s := by
  induction rest with
  | nil => exact fun s' _ => .ok .split
  | cons part rest ih =>
    intro t ht
    have hrest := ih fun l hl => h l (List.mem_cons_of_mem _ hl)
    cases part with
    | literal text =>
      cases hrest t ht with
      | ok hr => exact .ok (.literal hr)
      | failed hr => exact .failed (.literal hr)
    | parameter x =>
      cases hv : t.session.evaluator x t.session.environment with
      | error text => exact .failed (.parameterFailed hv rfl)
      | ok v =>
        cases hrest t ht with
        | ok hr => exact .ok (.parameter hv hr)
        | failed hr => exact .failed (.parameter hv hr)
    | command l =>
      cases h l List.mem_cons_self t ht with
      | failed hl => exact .failed (.unreplaced hl)
      | ok hl =>
        cases hrest _ (ht.trans hl.level) with
        | ok hr => exact .ok (.replaced hl hr)
        | failed hr => exact .failed (.replaced hl hr)

theorem finishes_text {f : Fragment} {text : String} (hf : f = .plain text ∨ f = .quoted text)
    {rest : List Fragment} (a : Reentry.Assembly)
    (hparts : engine.FinishesOn (.parts (Word.split text)) s)
    (hrest : ∀ a, engine.FinishesOn (.fragments a rest) s) :
    engine.FinishesOn (.fragments a (f :: rest)) s := by
  intro t ht
  cases hparts t ht with
  | failed hp => exact .failed (.textFailed hf hp)
  | ok hp =>
    cases hrest _ _ (ht.trans hp.level) with
    | ok hr => exact .ok (.text hf hp hr)
    | failed hr => exact .failed (.text hf hp hr)

theorem finishes_fragments {rest : List Fragment} (a : Reentry.Assembly)
    (h : ∀ f ∈ rest, ∀ text, f = .plain text ∨ f = .quoted text →
      engine.FinishesOn (.parts (Word.split text)) s) :
    engine.FinishesOn (.fragments a rest) s := by
  induction rest generalizing a with
  | nil => exact fun s' _ => .ok .assembled
  | cons f rest ih =>
    have hrest := fun a => ih a fun f' hf' => h f' (List.mem_cons_of_mem _ hf')
    cases f with
    | plain text =>
      exact finishes_text (.inl rfl) a (h _ List.mem_cons_self _ (.inl rfl)) hrest
    | quoted text =>
      exact finishes_text (.inr rfl) a (h _ List.mem_cons_self _ (.inr rfl)) hrest
    | verbatim text =>
      intro t ht
      cases hrest (a.add text) t ht with
      | ok hr => exact .ok (.verbatim hr)
      | failed hr => exact .failed (.verbatim hr)
    | space =>
      intro t ht
      cases hrest a.flush t ht with
      | ok hr => exact .ok (.space hr)
      | failed hr => exact .failed (.space hr)

theorem call_cases (engine : Engine κ) (path : String) (args : List String) (s : Shell κ) :
    (∃ o s', engine.Outright path args s o s') ∨ (∃ a, s.resolve path = .ok (.aliased a)) ∨
      ∃ p r body, s.resolve path = .ok (.command p r) ∧
        (engine.command r.descriptor.action).Starts r.descriptor.verbatim args body := by
  cases hr : s.resolve path with
  | error e => exact .inl ⟨_,_,.unresolved hr⟩
  | ok resolution =>
    cases resolution with
    | group g => exact .inl ⟨_,_,.group hr⟩
    | aliased a => exact .inr (.inl ⟨a,rfl⟩)
    | command p r =>
      cases hv : r.descriptor.verbatim with
      | true => exact .inr (.inr ⟨p,r,_,rfl,.verbatim hv⟩)
      | false =>
        cases hbind : (engine.command r.descriptor.action).bind args with
        | error e => exact .inl ⟨_,_,.usage hr hv hbind⟩
        | ok binding =>
          cases binding with
          | ready body => exact .inr (.inr ⟨p,r,body,rfl,.bound hv hbind⟩)
          | help text =>
            cases hw : s.session.console.write .output
                (Text.encode (Text.trimmedEnd text ++ "\n")) with
            | ok c => exact .inl ⟨_,_,.helped hr hv hbind hw⟩
            | error e => exact .inl ⟨_,_,.unhelped hr hv hbind hw⟩

theorem finishes_call (hengine : ∀ a, (engine.command a).Direct)
    (h : ∀ name l, engine.FinishesOn (.expansion name l) s) (path : String) (args : List String) :
    engine.FinishesOn (.call path args) s := by
  intro t ht
  obtain ⟨o,t',houtright⟩ | ⟨a,hr⟩ | ⟨p,r,body,hr,hb⟩ := engine.call_cases path args t
  · cases o with
    | ok v => exact .ok (.outright houtright)
    | error e => exact .failed (.outrightFailed houtright)
  · cases h a.name (a.expand args) _ (ht.trans t.level_synced) with
    | ok he => exact .ok (.aliased hr he)
    | failed he => exact .failed (.aliased hr he)
  · obtain ⟨τ,result,t',hp⟩ :=
      exists_runs_program engine (hengine _ _ _ _ hb ⟨path,args⟩) t.synced
    cases result with
    | ok v => exact .ok (.ran hr hb hp)
    | error f => exact .failed (.ran hr hb hp)

theorem finishes_statement {st : Statement}
    (hfragments : engine.FinishesOn (.fragments ⟨[],""⟩ st.fragments) s)
    (hcall : ∀ path args, engine.FinishesOn (.call path args) s) :
    engine.FinishesOn (.statement st) s := by
  intro t ht
  cases hfragments t ht with
  | failed hf => exact .failed (.unexpanded hf)
  | @ok τ a t' hf =>
    cases hwords : a.flush.words with
    | nil => exact .ok (.blank hf hwords)
    | cons path args =>
      cases hcall path args t' (ht.trans hf.level) with
      | ok hc => exact .ok (.called hf hwords hc)
      | failed hc => exact .failed (.called hf hwords hc)

theorem finishes_statements {rest : List Statement} (last : Option Value)
    (h : ∀ st ∈ rest, engine.FinishesOn (.statement st) s) :
    engine.FinishesOn (.statements last rest) s := by
  induction rest generalizing last with
  | nil => exact fun s' _ => .ok .done
  | cons st rest ih =>
    intro t ht
    have hrest := fun last => ih last fun st' hst' => h st' (List.mem_cons_of_mem _ hst')
    cases h st List.mem_cons_self t ht with
    | ok hs =>
      cases hrest _ _ (ht.trans hs.level) with
      | ok hr => exact .ok (.next hs hr)
      | failed hr => exact .failed (.next hs hr)
    | @failed τ e t' hs =>
      by_cases hx : (Halt.failed e).Passes t'.session.config
      · cases hw : t'.session.console.write .errors (Text.encode (e.message ++ "\n")) with
        | error io => exact .failed (.unreported hs hx hw)
        | ok c =>
          cases hrest _ _ ((ht.trans hs.level).trans (t'.level_withConsole c)) with
          | ok hr => exact .ok (.reported hs hx hw hr)
          | failed hr => exact .failed (.reported hs hx hw hr)
      · exact .failed (.stopped hs hx)

theorem finishes_expansion {name l : String}
    (h : s.session.aliasDepth < s.session.config.maxAliasDepth →
      engine.Finishes (.line l) s.deeper) : engine.Finishes (.expansion name l) s := by
  by_cases hs : s.session.aliasDepth < s.session.config.maxAliasDepth
  · cases h hs with
    | ok hl => exact .ok (.expanded hs hl)
    | failed hl => exact .failed (.expanded hs hl)
  · exact .failed (.refused (Nat.not_lt.1 hs))

/-- A line finishes if the expansions do that start on its level, and the substitutions of shorter
lines. -/
theorem finishes_line_of (hengine : ∀ a, (engine.command a).Direct) {l : String}
    (hexpansion : ∀ name x, engine.FinishesOn (.expansion name x) s)
    (hsubstitution : ∀ body, body.length < l.length → engine.FinishesOn (.substitution body) s) :
    engine.Finishes (.line l) s := by
  cases hp : Line.parse l with
  | error e => exact .failed (.unfinished hp)
  | ok p =>
    have hstatements : engine.FinishesOn (.statements none p.statements) s := by
      refine finishes_statements none fun st hst => finishes_statement ?_ ?_
      · refine finishes_fragments _ fun f hf text htext => finishes_parts fun body hbody => ?_
        exact hsubstitution body (Line.length_lt_of_substituted hp hst hf htext hbody)
      · exact finishes_call hengine hexpansion
    cases hstatements s (.refl s) with
    | ok hs => exact .ok (.parsed hp hs)
    | failed hs => exact .failed (.parsed hp hs)

theorem budget_deeper_lt {t : Shell κ} (hs : s.Level t)
    (h : t.session.aliasDepth < t.session.config.maxAliasDepth) : t.deeper.budget < s.budget := by
  have hbudget : t.deeper.budget = s.session.config.maxAliasDepth - (s.session.aliasDepth + 1) := by
    rw [← hs.config,← hs.depth]
    rfl
  rw [hs.config,hs.depth] at h
  rw [hbudget,Shell.budget]
  omega

theorem budget_capture {t : Shell κ} (hs : s.Level t) : t.capture.budget = s.budget := by
  rw [Shell.budget,Shell.budget,← hs.config,← hs.depth]
  rfl

theorem finishes_line (hengine : ∀ a, (engine.command a).Direct) (l : String) (s : Shell κ) :
    engine.Finishes (.line l) s := by
  refine finishes_line_of hengine (fun name x t ht => finishes_expansion fun hlt => ?_)
    fun body hbody t ht => finishes_substitution ?_
  · exact finishes_line hengine x t.deeper
  · exact finishes_line hengine body t.capture
termination_by (s.budget,l.length)
decreasing_by
  · exact .left _ _ (budget_deeper_lt ht hlt)
  · rw [budget_capture ht]
    exact .right _ hbody

theorem Finishes.settles {t : Task κ} (h : engine.Finishes t s) :
    ∃ o s', engine.Settles t s o s' := by
  cases h with
  | @ok τ v s' h => exact ⟨.ok v,s',h.reached.ok⟩
  | @failed τ e s' h => exact ⟨.error e,s',h.reached.failed⟩

/-- From some depth on there is a result, and it is the same at every depth. -/
def Returns {α : Type} (act : Nat → ShellAct κ α) : Prop :=
  ∀ s, ∃ o s' depth, ∀ n, depth ≤ n → (act n).run s = some (o,s')

/-- Where all commands are built-in or run nothing else, every line comes to a result, and so does
every command, expansion and substitution, in all sessions: whatever aliases and variables there
are, how many aliases may be expanded inside one another, and whether errors stop a line. -/
theorem every_line_returns (hengine : engine.Plain) :
    (∀ l, Returns fun n => (engine.reentry n).execute l) ∧
    (∀ path args, Returns fun n => (engine.reentry n).run path args) ∧
    (∀ name l, Returns fun n => (engine.reentry n).executeAlias name l) ∧
    ∀ l, Returns fun n => (engine.reentry n).substitute l := by
  have hline := fun l s => finishes_line hengine.direct l s
  have hexpansion : ∀ name l s, engine.Finishes (.expansion name l) s :=
    fun name l s => finishes_expansion fun _ => hline l s.deeper
  refine ⟨fun l s => ?_,fun path args s => ?_,fun name l s => ?_,fun l s => ?_⟩
  · obtain ⟨o,s',h⟩ := (hline l s).settles
    exact ⟨o,s',Filter.eventually_atTop.1 h.execute⟩
  · have hcall : engine.FinishesOn (.call path args) s :=
      finishes_call hengine.direct (fun name l t _ => hexpansion name l t) path args
    obtain ⟨o,s',h⟩ := (hcall s (.refl s)).settles
    exact ⟨o,s',Filter.eventually_atTop.1 h.run⟩
  · obtain ⟨o,s',h⟩ := (hexpansion name l s).settles
    exact ⟨o,s',Filter.eventually_atTop.1 h⟩
  · obtain ⟨o,s',h⟩ := (finishes_substitution (hline l s.capture)).settles
    exact ⟨o,s',Filter.eventually_atTop.1 h⟩

theorem plain_ofBuiltins : ofBuiltins.Plain := fun b => .inl ⟨b,rfl⟩

def recurring : Shell Builtin :=
  let session := Session.opened (.opened [])
  { kernel := .withBuiltins id
    disk := .empty
    session := { session with
      aliases := (session.aliases.define "ping" "pong; echo $(ping)").define "pong"
        "alias ping='pong; pong'; ping"
      config := ⟨3,.proceed,""⟩ } }

/-- The limit ends the line. -/
theorem every_line_returns_recurring : ofBuiltins.Plain ∧
    ∃ e s' depth, e.message = "alias `ping` nested more than 3 levels deep" ∧
      ∀ n, depth ≤ n → ((ofBuiltins.reentry n).execute "pong").run recurring =
        some (.error e,s') := by
  refine ⟨plain_ofBuiltins,?_⟩
  obtain ⟨o,s',depth,hrun⟩ := (every_line_returns plain_ofBuiltins).1 "pong" recurring
  have hend : (((ofBuiltins.reentry 10).execute "pong").run recurring).map
      (fun r => (raisedBy r).map ShellError.message) =
        some (some "alias `ping` nested more than 3 levels deep") := by decide +kernel
  obtain ⟨⟨o',s''⟩,hrun',ho'⟩ := Option.map_eq_some_iff.1 hend
  -- the result at one depth is that at all depths from some on
  have hline : ofBuiltins.perform (ofBuiltins.reentry depth) (.line "pong") recurring =
    some (o,s') := hrun (depth + 1) depth.le_succ
  have hline' : ofBuiltins.perform (ofBuiltins.reentry 9) (.line "pong") recurring =
    some (o',s'') := hrun'
  obtain ⟨rfl,rfl⟩ := perform_unique hline hline'
  cases o with
  | ok v => cases ho'
  | error e => exact ⟨e,s',depth,Option.some.inj ho',hrun⟩

end Engine
end CommandShell
