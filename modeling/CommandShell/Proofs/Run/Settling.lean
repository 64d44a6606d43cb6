import Mathlib.Order.Filter.AtTopBot.Basic
import CommandShell.Proofs.Run.Adequacy

/-! What tasks come to once there is depth enough.
There is a rule for each way in which a task goes on, as there is one for its courses: if what it
takes up on the way settles, so does the task. -/
namespace CommandShell

variable {κ : Type}

open Filter

namespace Engine

variable {engine : Engine κ} {inner : Reentry κ} {t : Task κ} {s s' s'' : Shell κ}

/-- However much depth there is beyond some, the task is performed with this result. -/
def Settles (engine : Engine κ) (t : Task κ) (s : Shell κ) (o : Except ShellError t.Yield)
    (s' : Shell κ) : Prop :=
  ∀ᶠ n in atTop, engine.perform (engine.reentry n) t s = some (o,s')

theorem eventually_succ {p : Nat → Prop} (h : ∀ᶠ n in atTop, p n) :
    ∀ᶠ n in atTop, ∃ k, n = k + 1 ∧ p k := by
  obtain ⟨n,hn⟩ := eventually_atTop.1 h
  refine eventually_atTop.2 ⟨n + 1,fun m hm => ?_⟩
  obtain ⟨k,rfl⟩ := Nat.exists_eq_add_of_le' (Nat.one_le_of_lt hm)
  exact ⟨k,rfl,hn k (Nat.le_of_succ_le_succ hm)⟩

/-- A line takes one level of the depth. -/
theorem Settles.execute {l : String} {o : Except ShellError (Option Value)}
    (h : engine.Settles (.line l) s o s') :
    ∀ᶠ n in atTop, ((engine.reentry n).execute l).run s = some (o,s') := by
  filter_upwards [eventually_succ h] with n ⟨k,hk,hrun⟩
  rw [hk]
  exact hrun

theorem Settles.run {path : String} {args : List String} {o : Except ShellError Value}
    (h : engine.Settles (.call path args) s o s') :
    ∀ᶠ n in atTop, ((engine.reentry n).run path args).run s = some (o,s') := by
  filter_upwards [eventually_succ h] with n ⟨k,hk,hrun⟩
  rw [hk]
  exact hrun

theorem nextStatement_ok {st : Statement} {last v : Option Value}
    (h : engine.perform inner (.statement st) s = some (.ok v,s')) :
    (engine.nextStatement inner last st).run s = some (.ok (v.or last),s') := by
  simp only [nextStatement,ExceptT.run_mk]
  exact Act.bind_eq_some.2 ⟨_,_,h,rfl⟩

theorem nextStatement_stopped {st : Statement} {last : Option Value} {e : ShellError}
    (h : engine.perform inner (.statement st) s = some (.error e,s'))
    (hx : ¬(s'.session.config.onError = .proceed ∧ e.isRecoverable = true)) :
    (engine.nextStatement inner last st).run s = some (.error e,s') := by
  simp only [nextStatement,ExceptT.run_mk]
  refine Act.bind_eq_some.2 ⟨_,_,h,?_⟩
  simp only [Act.session_bind]
  rw [if_neg hx]
  rfl

theorem nextStatement_passed {st : Statement} {last : Option Value} {e : ShellError}
    (h : engine.perform inner (.statement st) s = some (.error e,s'))
    (hx : s'.session.config.onError = .proceed ∧ e.isRecoverable = true) {r : Except IoError Unit}
    (hw : Act.write .errors (Text.encode (e.message ++ "\n")) s' = some (r,s'')) :
    (engine.nextStatement inner last st).run s =
      some ((r.mapError .io).map fun _ => some (.status 1),s'') := by
  simp only [nextStatement,ExceptT.run_mk]
  refine Act.bind_eq_some.2 ⟨_,_,h,?_⟩
  simp only [Act.session_bind]
  rw [if_pos hx]
  exact Act.bind_eq_some.2 ⟨_,_,hw,rfl⟩

theorem write_ok {channel : Channel} {bytes : Bytes} {c : Console}
    (h : s.session.console.write channel bytes = .ok c) :
    Act.write channel bytes s = some (.ok (),s.withConsole c) := by
  simp only [Act.write,h]

theorem write_error {channel : Channel} {bytes : Bytes} {io : IoError}
    (h : s.session.console.write channel bytes = .error io) :
    Act.write channel bytes s = some (.error io,s) := by
  simp only [Act.write,h]

theorem perform_statements_ok {st : Statement} {rest : List Statement} {last v : Option Value}
    {o : Except ShellError (Option Value)}
    (h : (engine.nextStatement inner last st).run s = some (.ok v,s'))
    (hr : engine.perform inner (.statements v rest) s' = some (o,s'')) :
    engine.perform inner (.statements last (st :: rest)) s = some (o,s'') := by
  simp only [perform,List.foldlM_cons]
  exact ShellAct.bind_eq_some.2 (.inl ⟨v,s',h,hr⟩)

theorem perform_statements_error {st : Statement} {rest : List Statement} {last : Option Value}
    {e : ShellError} (h : (engine.nextStatement inner last st).run s = some (.error e,s')) :
    engine.perform inner (.statements last (st :: rest)) s = some (.error e,s') := by
  simp only [perform,List.foldlM_cons]
  exact ShellAct.bind_eq_some.2 (.inr ⟨e,h,rfl⟩)

theorem expandFragment_text {f : Fragment} {text : String}
    (hf : f = .plain text ∨ f = .quoted text) (a : Reentry.Assembly) :
    inner.expandFragment a f = (Word.split text).mapM inner.expandPart >>=
      fun ts => pure (a.add (String.join ts)) := by
  obtain rfl | rfl := hf
  all_goals
    simp only [Reentry.expandFragment,Reentry.expandText,bind_assoc]
    rfl

theorem perform_text {a : Reentry.Assembly} {f : Fragment} {text : String}
    (hf : f = .plain text ∨ f = .quoted text) {rest : List Fragment} {ts : List String}
    {o : Except ShellError Reentry.Assembly}
    (h : engine.perform inner (.parts (Word.split text)) s = some (.ok ts,s'))
    (hr : engine.perform inner (.fragments (a.add (String.join ts)) rest) s' = some (o,s'')) :
    engine.perform inner (.fragments a (f :: rest)) s = some (o,s'') := by
  simp only [perform,List.foldlM_cons,expandFragment_text hf,bind_assoc]
  exact ShellAct.bind_eq_some.2 (.inl ⟨ts,s',h,hr⟩)

theorem perform_text_error {a : Reentry.Assembly} {f : Fragment} {text : String}
    (hf : f = .plain text ∨ f = .quoted text) {rest : List Fragment} {e : ShellError}
    (h : engine.perform inner (.parts (Word.split text)) s = some (.error e,s')) :
    engine.perform inner (.fragments a (f :: rest)) s = some (.error e,s') := by
  simp only [perform,List.foldlM_cons,expandFragment_text hf,bind_assoc]
  exact ShellAct.bind_eq_some.2 (.inr ⟨e,h,rfl⟩)

theorem perform_part {part : Word.Part} {rest : List Word.Part} {text : String}
    {o : Except ShellError (List String)}
    (h : (inner.expandPart part).run s = some (.ok text,s'))
    (hr : engine.perform inner (.parts rest) s' = some (o,s'')) :
    engine.perform inner (.parts (part :: rest)) s = some (o.map (text :: ·),s'') := by
  simp only [perform,List.mapM_cons]
  refine ShellAct.bind_eq_some.2 (.inl ⟨text,s',h,?_⟩)
  cases o with
  | ok ts => exact ShellAct.bind_eq_some.2 (.inl ⟨ts,s'',hr,rfl⟩)
  | error e => exact ShellAct.bind_eq_some.2 (.inr ⟨e,hr,rfl⟩)

theorem perform_part_error {part : Word.Part} {rest : List Word.Part} {e : ShellError}
    (h : (inner.expandPart part).run s = some (.error e,s')) :
    engine.perform inner (.parts (part :: rest)) s = some (.error e,s') := by
  simp only [perform,List.mapM_cons]
  exact ShellAct.bind_eq_some.2 (.inr ⟨e,h,rfl⟩)

theorem expandPart_command_run {l : String} {o : Except ShellError String}
    (h : engine.perform inner (.substitution l) s = some (o,s')) :
    (inner.expandPart (.command l)).run s =
      some (o.mapError (Frame.substitution l).carry,s') := by
  rw [Reentry.expandPart_command]
  exact Act.bind_eq_some.2 ⟨o,s',h,rfl⟩

theorem perform_substitution {l : String} {o : Except ShellError (Option Value)}
    (h : (inner.execute l).run s.capture = some (o,s')) :
    engine.perform inner (.substitution l) s =
      some (o.map (Task.substituted s'.session.console.release.1),s'.release) := by
  simp only [perform,Reentry.substitute_run]
  exact Act.bind_eq_some.2 ⟨_,_,Act.captured_eq_some.2 ⟨s',h,rfl,rfl⟩,rfl⟩

theorem perform_expansion {name l : String} {o : Except ShellError (Option Value)}
    (hs : s.session.aliasDepth < s.session.config.maxAliasDepth)
    (h : (inner.execute l).run s.deeper = some (o,s')) :
    engine.perform inner (.expansion name l) s = some (o,s'.shallower) := by
  simp only [perform,Reentry.executeAlias,ExceptT.run_mk,Act.session_bind]
  rw [if_neg (Nat.not_le.2 hs)]
  exact Act.bind_eq_some.2 ⟨_,_,rfl,Act.bind_eq_some.2 ⟨o,s',h,rfl⟩⟩

theorem perform_program {p : Program κ Value} {o : Except ShellError (Except Failure Value)} :
    engine.perform inner (.program p) s = some (o,s') ↔
      ∃ result, p.perform (engine.answer inner) s = some (result,s') ∧ o = .ok result := by
  simp only [perform,map_eq_pure_bind]
  constructor
  · intro h
    obtain ⟨result,t,hp,h⟩ := Act.bind_eq_some.1 h
    obtain ⟨rfl,rfl⟩ := Act.pure_eq_some.1 h
    exact ⟨result,hp,rfl⟩
  · rintro ⟨result,hp,rfl⟩
    exact Act.bind_eq_some.2 ⟨result,s',hp,rfl⟩

theorem perform_ask {r : Request κ} {next : r.Answer → Program κ Value} {a : r.Answer}
    {o : Except ShellError (Except Failure Value)}
    (h : engine.answer inner r s = some (a,s'))
    (hn : engine.perform inner (.program (next a)) s' = some (o,s'')) :
    engine.perform inner (.program (.ask r next)) s = some (o,s'') := by
  obtain ⟨result,hp,rfl⟩ := perform_program.1 hn
  exact perform_program.2 ⟨result,Act.bind_eq_some.2 ⟨a,s',h,hp⟩,rfl⟩

theorem answer_direct {r : Request κ} (hr : r.Direct) {inner' : Reentry κ} :
    engine.answer inner r = engine.answer inner' r := by
  cases r with
  | execute l => exact hr.elim
  | run path args => exact hr.elim
  | executeAlias name l => exact hr.elim
  | _ => rfl

theorem perform_call {path : String} {args : List String} {o : Except ShellError Value}
    (resolution : Resolution κ) : s.resolve path = .ok resolution →
      (match resolution with
      | .group g => throw (.isAGroup g.text)
      | .aliased a => return (← inner.executeAlias a.name (a.expand args)).getD .null
      | .command _ r => engine.runCommand inner r.descriptor path args :
        ShellAct κ Value).run s.synced = some (o,s') →
      engine.perform inner (.call path args) s = some (o,s') := by
  intro h hrun
  have hresolve := resolve_run path s
  rw [h] at hresolve
  refine ShellAct.bind_eq_some.2 (.inl ⟨resolution,s.synced,hresolve,?_⟩)
  cases resolution <;> exact hrun

theorem perform_outright {path : String} {args : List String} {o : Except ShellError Value}
    (h : engine.Outright path args s o s') :
    engine.perform inner (.call path args) s = some (o,s') := by
  cases h with
  | @unresolved e h =>
    have hresolve := resolve_run path s
    rw [h] at hresolve
    exact ShellAct.bind_eq_some.2 (.inr ⟨e,hresolve,rfl⟩)
  | group h => exact perform_call _ h rfl
  | usage h hv hb =>
    refine perform_call _ h ?_
    simp only [runCommand,hv,hb]
    rfl
  | helped h hv hb hw =>
    refine perform_call _ h ?_
    simp only [runCommand,hv,hb]
    exact Act.bind_eq_some.2 ⟨_,_,write_ok hw,rfl⟩
  | unhelped h hv hb hw =>
    refine perform_call _ h ?_
    simp only [runCommand,hv,hb]
    exact Act.bind_eq_some.2 ⟨_,_,write_error hw,rfl⟩

theorem perform_ran {path : String} {args : List String} {p : Path} {r : Registered κ}
    {body : Invocation → Program κ Value} {result : Except Failure Value}
    (hr : s.resolve path = .ok (.command p r))
    (hb : (engine.command r.descriptor.action).Starts r.descriptor.verbatim args body)
    (h : engine.perform inner (.program (body ⟨path,args⟩)) s.synced = some (.ok result,s')) :
    engine.perform inner (.call path args) s = some (result.mapError (·.raise path args),s') := by
  obtain ⟨_,hp,⟨rfl⟩⟩ := perform_program.1 h
  refine perform_call _ hr ?_
  cases hb with
  | verbatim hv =>
    simp only [runCommand,hv]
    exact Act.bind_eq_some.2 ⟨result,s',hp,rfl⟩
  | bound hv hb =>
    simp only [runCommand,hv,hb]
    exact Act.bind_eq_some.2 ⟨result,s',hp,rfl⟩

theorem perform_aliased {path : String} {args : List String} {a : Alias}
    {o : Except ShellError (Option Value)} (hr : s.resolve path = .ok (.aliased a))
    (h : engine.perform inner (.expansion a.name (a.expand args)) s.synced = some (o,s')) :
    engine.perform inner (.call path args) s = some (o.map (·.getD .null),s') := by
  refine perform_call _ hr ?_
  cases o with
  | ok v => exact ShellAct.bind_eq_some.2 (.inl ⟨v,s',h,rfl⟩)
  | error e => exact ShellAct.bind_eq_some.2 (.inr ⟨e,h,rfl⟩)

theorem perform_statement {st : Statement} {a : Reentry.Assembly}
    {o : Except ShellError (Option Value)}
    (h : engine.perform inner (.fragments ⟨[],""⟩ st.fragments) s = some (.ok a,s'))
    (hr : (match a.flush.words with
      | [] => return none
      | path :: args => return some (← engine.runPath inner path args) :
        ShellAct κ (Option Value)).run s' = some (o,s'')) :
    engine.perform inner (.statement st) s = some (o,s'') := by
  simp only [perform,runStatement,Reentry.expand,bind_assoc]
  exact ShellAct.bind_eq_some.2 (.inl ⟨a,s',h,hr⟩)

theorem perform_statement_error {st : Statement} {e : ShellError}
    (h : engine.perform inner (.fragments ⟨[],""⟩ st.fragments) s = some (.error e,s')) :
    engine.perform inner (.statement st) s = some (.error e,s') := by
  simp only [perform,runStatement,Reentry.expand,bind_assoc]
  exact ShellAct.bind_eq_some.2 (.inr ⟨e,h,rfl⟩)

namespace Settles

theorem of_perform {o : Except ShellError t.Yield}
    (h : ∀ inner, engine.perform inner t s = some (o,s')) : engine.Settles t s o s' :=
  .of_forall fun _ => h _

section Line

variable {l : String} {o : Except ShellError (Option Value)}

theorem unfinished {e : Unfinished} (hp : Line.parse l = .error e) :
    engine.Settles (.line l) s (.error (.unfinished e)) s := by
  refine of_perform fun inner => ?_
  simp only [perform,runLine,hp]
  rfl

theorem parsed {p : Line} (hp : Line.parse l = .ok p)
    (h : engine.Settles (.statements none p.statements) s o s') :
    engine.Settles (.line l) s o s' := by
  filter_upwards [h] with n hn
  simp only [perform,runLine,hp]
  exact hn

variable {st : Statement} {rest : List Statement} {last : Option Value} {e : ShellError}

theorem next {v : Option Value} (h : engine.Settles (.statement st) s (.ok v) s')
    (hr : engine.Settles (.statements (v.or last) rest) s' o s'') :
    engine.Settles (.statements last (st :: rest)) s o s'' := by
  filter_upwards [h,hr] with n hn hn'
  exact perform_statements_ok (nextStatement_ok hn) hn'

theorem stopped (h : engine.Settles (.statement st) s (.error e) s')
    (hx : ¬(Halt.failed e).Passes s'.session.config) :
    engine.Settles (.statements last (st :: rest)) s (.error e) s' := by
  filter_upwards [h] with n hn
  exact perform_statements_error (nextStatement_stopped hn hx)

theorem reported {c : Console} (h : engine.Settles (.statement st) s (.error e) s')
    (hx : (Halt.failed e).Passes s'.session.config)
    (hw : s'.session.console.write .errors (Text.encode (e.message ++ "\n")) = .ok c)
    (hr : engine.Settles (.statements (some (.status 1)) rest) (s'.withConsole c) o s'') :
    engine.Settles (.statements last (st :: rest)) s o s'' := by
  filter_upwards [h,hr] with n hn hn'
  exact perform_statements_ok (nextStatement_passed hn hx (write_ok hw)) hn'

theorem unreported {io : IoError} (h : engine.Settles (.statement st) s (.error e) s')
    (hx : (Halt.failed e).Passes s'.session.config)
    (hw : s'.session.console.write .errors (Text.encode (e.message ++ "\n")) = .error io) :
    engine.Settles (.statements last (st :: rest)) s (.error (.io io)) s' := by
  filter_upwards [h] with n hn
  exact perform_statements_error (nextStatement_passed hn hx (write_error hw))

end Line

section Statement

variable {st : Statement} {a : Reentry.Assembly}

theorem unexpanded {e : ShellError}
    (h : engine.Settles (.fragments ⟨[],""⟩ st.fragments) s (.error e) s') :
    engine.Settles (.statement st) s (.error e) s' := by
  filter_upwards [h] with n hn
  exact perform_statement_error hn

theorem blank (h : engine.Settles (.fragments ⟨[],""⟩ st.fragments) s (.ok a) s')
    (ha : a.flush.words = []) : engine.Settles (.statement st) s (.ok none) s' := by
  filter_upwards [h] with n hn
  refine perform_statement hn ?_
  rw [ha]
  rfl

theorem called {path : String} {args : List String} {o : Except ShellError Value}
    (h : engine.Settles (.fragments ⟨[],""⟩ st.fragments) s (.ok a) s')
    (ha : a.flush.words = path :: args) (hc : engine.Settles (.call path args) s' o s'') :
    engine.Settles (.statement st) s (o.map some) s'' := by
  filter_upwards [h,hc] with n hn hn'
  refine perform_statement hn ?_
  rw [ha]
  cases o with
  | ok v => exact ShellAct.bind_eq_some.2 (.inl ⟨v,s'',hn',rfl⟩)
  | error e => exact ShellAct.bind_eq_some.2 (.inr ⟨e,hn',rfl⟩)

end Statement

section Words

variable {a : Reentry.Assembly} {f : Fragment} {word : String} {rest : List Fragment}
  {o : Except ShellError Reentry.Assembly}

theorem space (h : engine.Settles (.fragments a.flush rest) s o s') :
    engine.Settles (.fragments a (.space :: rest)) s o s' := h

theorem verbatim (h : engine.Settles (.fragments (a.add word) rest) s o s') :
    engine.Settles (.fragments a (.verbatim word :: rest)) s o s' := h

theorem text {ts : List String} (hf : f = .plain word ∨ f = .quoted word)
    (h : engine.Settles (.parts (Word.split word)) s (.ok ts) s')
    (hr : engine.Settles (.fragments (a.add (String.join ts)) rest) s' o s'') :
    engine.Settles (.fragments a (f :: rest)) s o s'' := by
  filter_upwards [h,hr] with n hn hn'
  exact perform_text hf hn hn'

theorem textFailed {e : ShellError} (hf : f = .plain word ∨ f = .quoted word)
    (h : engine.Settles (.parts (Word.split word)) s (.error e) s') :
    engine.Settles (.fragments a (f :: rest)) s (.error e) s' := by
  filter_upwards [h] with n hn
  exact perform_text_error hf hn

end Words

section Parts

variable {x l : String} {rest : List Word.Part} {o : Except ShellError (List String)}

theorem literal {text : String} (h : engine.Settles (.parts rest) s o s') :
    engine.Settles (.parts (.literal text :: rest)) s (o.map (text :: ·)) s' := by
  filter_upwards [h] with n hn
  exact perform_part rfl hn

theorem parameter {v : Value} (hv : s.session.evaluator x s.session.environment = .ok v)
    (h : engine.Settles (.parts rest) s o s') :
    engine.Settles (.parts (.parameter x :: rest)) s (o.map (v.text :: ·)) s' := by
  filter_upwards [h] with n hn
  refine perform_part ?_ hn
  rw [Reentry.expandPart_parameter,hv]

theorem parameterFailed {text : String} {e : ShellError}
    (hv : s.session.evaluator x s.session.environment = .error text)
    (he : e = .evaluation ("$\x7b" ++ x ++ "\x7d") (.message text)) :
    engine.Settles (.parts (.parameter x :: rest)) s (.error e) s := by
  refine of_perform fun inner => perform_part_error ?_
  rw [Reentry.expandPart_parameter,hv,he]

theorem replaced {text : String} (h : engine.Settles (.substitution l) s (.ok text) s')
    (hr : engine.Settles (.parts rest) s' o s'') :
    engine.Settles (.parts (.command l :: rest)) s (o.map (text :: ·)) s'' := by
  filter_upwards [h,hr] with n hn hn'
  exact perform_part (expandPart_command_run hn) hn'

theorem unreplaced {e : ShellError} (h : engine.Settles (.substitution l) s (.error e) s') :
    engine.Settles (.parts (.command l :: rest)) s (.error ((Frame.substitution l).carry e))
      s' := by
  filter_upwards [h] with n hn
  exact perform_part_error (expandPart_command_run hn)

theorem captured {o : Except ShellError (Option Value)}
    (h : engine.Settles (.line l) s.capture o s') : engine.Settles (.substitution l) s
      (o.map (Task.substituted s'.session.console.release.1)) s'.release := by
  filter_upwards [h.execute] with n hn
  exact perform_substitution hn

end Parts

section Call

variable {path name l : String} {args : List String}

theorem outright {o : Except ShellError Value} (h : engine.Outright path args s o s') :
    engine.Settles (.call path args) s o s' := of_perform fun _ => perform_outright h

theorem aliased {a : Alias} {o : Except ShellError (Option Value)}
    (hr : s.resolve path = .ok (.aliased a))
    (h : engine.Settles (.expansion a.name (a.expand args)) s.synced o s') :
    engine.Settles (.call path args) s (o.map (·.getD .null)) s' := by
  filter_upwards [h] with n hn
  exact perform_aliased hr hn

theorem ran {p : Path} {r : Registered κ} {body : Invocation → Program κ Value}
    {result : Except Failure Value} (hr : s.resolve path = .ok (.command p r))
    (hb : (engine.command r.descriptor.action).Starts r.descriptor.verbatim args body)
    (h : engine.Settles (.program (body ⟨path,args⟩)) s.synced (.ok result) s') :
    engine.Settles (.call path args) s (result.mapError (·.raise path args)) s' := by
  filter_upwards [h] with n hn
  exact perform_ran hr hb hn

theorem refused (hs : s.session.config.maxAliasDepth ≤ s.session.aliasDepth) :
    engine.Settles (.expansion name l) s
      (.error (.aliasDepthExceeded name s.session.config.maxAliasDepth)) s := by
  refine of_perform fun inner => ?_
  simp only [perform,Reentry.executeAlias,ExceptT.run_mk,Act.session_bind]
  rw [if_pos hs]
  rfl

theorem expanded {o : Except ShellError (Option Value)}
    (hs : s.session.aliasDepth < s.session.config.maxAliasDepth)
    (h : engine.Settles (.line l) s.deeper o s') :
    engine.Settles (.expansion name l) s o s'.shallower := by
  filter_upwards [h.execute] with n hn
  exact perform_expansion hs hn

end Call

section Program

variable {r : Request κ} {next : r.Answer → Program κ Value} {p : Program κ Value}
  {o : Except ShellError (Except Failure Value)}

/-- What a program fails with is its result, and no error of the shell. -/
theorem program_ne_error {e : ShellError} : ¬engine.Settles (.program p) s (.error e) s' := by
  intro h
  obtain ⟨n,hn⟩ := h.exists
  obtain ⟨result,-,hresult⟩ := perform_program.1 hn
  cases hresult

theorem answered (hd : r.Direct) {a : r.Answer}
    (ha : engine.answer (engine.reentry 0) r s = some (a,s'))
    (h : engine.Settles (.program (next a)) s' o s'') :
    engine.Settles (.program (.ask r next)) s o s'' := by
  filter_upwards [h] with n hn
  exact perform_ask ((congrFun (answer_direct hd) _).trans ha) hn

theorem nested {give : Except ShellError t.Yield → r.Answer} (hr : r.Nested t give)
    {a : Except ShellError t.Yield} (h : engine.Settles t s a s')
    (hn : engine.Settles (.program (next (give a))) s' o s'') :
    engine.Settles (.program (.ask r next)) s o s'' := by
  cases hr with
  | execute =>
    filter_upwards [h.execute,hn] with n hn hn'
    exact perform_ask hn hn'
  | run =>
    filter_upwards [h.run,hn] with n hn hn'
    exact perform_ask hn hn'
  | executeAlias =>
    filter_upwards [h,hn] with n hn hn'
    exact perform_ask hn hn'

end Program
end Settles
end Engine
end CommandShell
