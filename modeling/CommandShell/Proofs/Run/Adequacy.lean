import CommandShell.Proofs.Run.Course

/-! Every run takes a course.
Whatever a session does within the depth it is given, the rules for courses allow, with the same
result in the same shell. -/
namespace CommandShell

variable {κ α β : Type}

theorem Act.bind_eq_some {x : Act κ α} {f : α → Act κ β} {s s' : Shell κ} {b : β} :
    (x >>= f) s = some (b,s') ↔ ∃ a t, x s = some (a,t) ∧ f a t = some (b,s') := by
  change (x s).bind (fun p => f p.1 p.2) = _ ↔ _
  simp [Option.bind_eq_some_iff]

theorem Act.pure_eq_some {s s' : Shell κ} {a b : α} :
    (pure a : Act κ α) s = some (b,s') ↔ a = b ∧ s = s' := by
  change some (a,s) = _ ↔ _
  simp

theorem Act.session_bind {f : Session → Act κ β} {s : Shell κ} :
    (Act.session >>= f) s = f s.session s := rfl

theorem Act.update_bind {g : Session → Session} {f : Unit → Act κ β} {s : Shell κ} :
    (Act.update g >>= f) s = f () (s.updated g) := rfl

theorem Act.captured_eq_some {act : Act κ α} {s s' : Shell κ} {a : α} {bytes : Bytes} :
    Act.captured act s = some ((a,bytes),s') ↔ ∃ t, act s.capture = some (a,t) ∧
      bytes = t.session.console.release.1 ∧ s' = t.release := by
  rw [Act.captured,Act.update_bind,Act.bind_eq_some]
  constructor
  · rintro ⟨b,t,hact,hrest⟩
    rw [Act.session_bind,Act.update_bind] at hrest
    obtain ⟨he,rfl⟩ := Act.pure_eq_some.1 hrest
    obtain ⟨rfl,rfl⟩ := Prod.mk.inj he
    exact ⟨t,hact,rfl,rfl⟩
  · rintro ⟨t,hact,rfl,rfl⟩
    exact ⟨a,t,hact,rfl⟩

theorem ShellAct.bind_eq_some {x : ShellAct κ α} {f : α → ShellAct κ β} {s s' : Shell κ}
    {o : Except ShellError β} : (x >>= f).run s = some (o,s') ↔
      (∃ a t, x.run s = some (.ok a,t) ∧ (f a).run t = some (o,s')) ∨
        ∃ e, x.run s = some (.error e,s') ∧ o = .error e := by
  rw [ExceptT.run_bind,Act.bind_eq_some]
  constructor
  · rintro ⟨r,t,hx,hf⟩
    cases r with
    | ok a => exact .inl ⟨a,t,hx,hf⟩
    | error e =>
      obtain ⟨rfl,rfl⟩ := Act.pure_eq_some.1 hf
      exact .inr ⟨e,hx,rfl⟩
  · rintro (⟨a,t,hx,hf⟩ | ⟨e,hx,rfl⟩)
    · exact ⟨.ok a,t,hx,hf⟩
    · exact ⟨.error e,s',hx,rfl⟩

theorem ShellAct.pure_eq_some {s s' : Shell κ} {a : α} {o : Except ShellError α} :
    (pure a : ShellAct κ α).run s = some (o,s') ↔ o = .ok a ∧ s = s' := by
  rw [ExceptT.run_pure,Act.pure_eq_some]
  exact and_congr_left' eq_comm

theorem ShellAct.throw_eq_some {s s' : Shell κ} {e : ShellError} {o : Except ShellError α} :
    (throw e : ShellAct κ α).run s = some (o,s') ↔ o = .error e ∧ s = s' := by
  change some (Except.error e,s) = _ ↔ _
  simp [eq_comm]

namespace Reentry

variable (inner : Reentry κ)

theorem substitute_run (l : String) : (inner.substitute l).run = do
    let p ← Act.captured (inner.execute l).run
    return p.1.map (Task.substituted p.2) := by
  simp only [Reentry.substitute,ExceptT.run_bind,ExceptT.run_liftM,bind_map_left]
  refine bind_congr fun ⟨o,bytes⟩ => ?_
  cases o with
  | ok value =>
    by_cases hb : bytes = []
    · subst hb
      rfl
    · simp only [Except.map,Task.substituted,hb,if_false]
      rfl
  | error e => rfl

theorem expandPart_parameter (x : String) (s : Shell κ) :
    (inner.expandPart (.parameter x)).run s =
      match s.session.evaluator x s.session.environment with
      | .ok v => some (.ok v.text,s)
      | .error text => some (.error (ShellError.evaluation ("$\x7b" ++ x ++ "\x7d")
          (.message text)),s) := by
  change (match s.session.evaluator x s.session.environment with
    | .ok v => (pure v.text : ShellAct κ String)
    | .error text =>
      throw (ShellError.evaluation ("$\x7b" ++ x ++ "\x7d") (.message text))).run s = _
  split <;> rfl

theorem expandPart_command (l : String) : (inner.expandPart (.command l)).run = do
    let o ← (inner.substitute l).run
    return o.mapError (Frame.substitution l).carry := by
  simp only [Reentry.expandPart,ExceptT.run_mk]
  refine bind_congr fun o => ?_
  cases o with
  | ok text => rfl
  | error e => cases e <;> rfl

end Reentry

namespace Engine

variable {engine : Engine κ} {inner : Reentry κ} {s s' : Shell κ}

/-- What a session does with a task, where `inner` runs what is to be run inside. -/
def perform (engine : Engine κ) (inner : Reentry κ) :
    (t : Task κ) → Act κ (Except ShellError t.Yield)
  | .line l => (engine.runLine inner l).run
  | .statements last rest => (rest.foldlM (engine.nextStatement inner) last).run
  | .statement st => (engine.runStatement inner st).run
  | .fragments a rest => (rest.foldlM inner.expandFragment a).run
  | .parts rest => (rest.mapM inner.expandPart).run
  | .substitution l => (inner.substitute l).run
  | .call path args => (engine.runPath inner path args).run
  | .expansion name l => (inner.executeAlias name l).run
  | .program p => .ok <$> p.perform (engine.answer inner)

theorem resolve_run (path : String) (s : Shell κ) :
    (Act.resolve path).run s = some (s.resolve path,s.synced) := rfl

def Follows (engine : Engine κ) (t : Task κ) (act : Act κ (Except ShellError t.Yield)) : Prop :=
  ∀ s o s', act s = some (o,s') → ∃ τ, engine.Runs t s τ (o.mapError .failed) s'

structure Covers (engine : Engine κ) (inner : Reentry κ) : Prop where
  execute : ∀ l, engine.Follows (.line l) (inner.execute l).run
  run : ∀ path args, engine.Follows (.call path args) (inner.run path args).run

variable (h : engine.Covers inner)
include h

theorem Covers.expansion (name l : String) :
    engine.Follows (.expansion name l) (engine.perform inner (.expansion name l)) := by
  intro s o s' hrun
  simp only [perform,Reentry.executeAlias,ExceptT.run_mk,Act.session_bind] at hrun
  split_ifs at hrun with hlimit
  · obtain ⟨rfl,rfl⟩ := Act.pure_eq_some.1 hrun
    exact ⟨_,.refused hlimit⟩
  · rw [Act.update_bind] at hrun
    obtain ⟨o',t,hl,hrun⟩ := Act.bind_eq_some.1 hrun
    rw [Act.update_bind] at hrun
    obtain ⟨rfl,rfl⟩ := Act.pure_eq_some.1 hrun
    obtain ⟨τ,hτ⟩ := h.execute l _ _ _ hl
    exact ⟨_,.expanded (Nat.lt_of_not_le hlimit) hτ⟩

theorem Covers.substitution (l : String) :
    engine.Follows (.substitution l) (engine.perform inner (.substitution l)) := by
  intro s o s' hrun
  simp only [perform,Reentry.substitute_run] at hrun
  obtain ⟨⟨o',bytes⟩,t,hc,hrun⟩ := Act.bind_eq_some.1 hrun
  obtain ⟨rfl,rfl⟩ := Act.pure_eq_some.1 hrun
  obtain ⟨t,hl,rfl,rfl⟩ := Act.captured_eq_some.1 hc
  obtain ⟨τ,hτ⟩ := h.execute l _ _ _ hl
  refine ⟨τ,?_⟩
  have hcourse := Runs.captured hτ
  cases o' <;> exact hcourse

theorem Covers.expandPart_ok {l text : String}
    (hp : (inner.expandPart (.command l)).run s = some (.ok text,s')) :
    ∃ τ, engine.Runs (.substitution l) s τ (.ok text) s' := by
  rw [Reentry.expandPart_command] at hp
  obtain ⟨o,t,hsub,hp⟩ := Act.bind_eq_some.1 hp
  obtain ⟨ho,rfl⟩ := Act.pure_eq_some.1 hp
  cases o with
  | error e => cases ho
  | ok text' =>
    obtain rfl := Except.ok.inj ho
    exact h.substitution l _ _ _ hsub

theorem Covers.expandPart_error {l : String} {e : ShellError}
    (hp : (inner.expandPart (.command l)).run s = some (.error e,s')) :
    ∃ τ e', engine.Runs (.substitution l) s τ (.error (.failed e')) s' ∧
      e = (Frame.substitution l).carry e' := by
  rw [Reentry.expandPart_command] at hp
  obtain ⟨o,t,hsub,hp⟩ := Act.bind_eq_some.1 hp
  obtain ⟨ho,rfl⟩ := Act.pure_eq_some.1 hp
  cases o with
  | ok text => cases ho
  | error e' =>
    obtain ⟨τ,hτ⟩ := h.substitution l _ _ _ hsub
    exact ⟨τ,e',hτ,(Except.error.inj ho).symm⟩

omit h in
/-- What follows a part whose text is known. -/
theorem Follows.behind {rest : List Word.Part}
    (hrest : engine.Follows (.parts rest) (rest.mapM inner.expandPart).run) {text : String}
    {o : Except ShellError (List String)}
    (hrun : (do let texts ← rest.mapM inner.expandPart; pure (text :: texts) : ShellAct κ _).run
      s = some (o,s')) :
    ∃ τ o', engine.Runs (.parts rest) s τ o' s' ∧ o.mapError .failed = o'.map (text :: ·) := by
  obtain ⟨texts,t,ht,hrun⟩ | ⟨e,ht,rfl⟩ := ShellAct.bind_eq_some.1 hrun
  · obtain ⟨rfl,rfl⟩ := ShellAct.pure_eq_some.1 hrun
    obtain ⟨τ,hτ⟩ := hrest _ _ _ ht
    exact ⟨τ,_,hτ,rfl⟩
  · obtain ⟨τ,hτ⟩ := hrest _ _ _ ht
    exact ⟨τ,_,hτ,rfl⟩

theorem Covers.parts (rest : List Word.Part) :
    engine.Follows (.parts rest) (engine.perform inner (.parts rest)) := by
  simp only [perform]
  induction rest with
  | nil =>
    intro s o s' hrun
    obtain ⟨rfl,rfl⟩ := ShellAct.pure_eq_some.1 hrun
    exact ⟨_,.split⟩
  | cons p rest ih =>
    intro s o s' hrun
    rw [List.mapM_cons] at hrun
    cases p with
    | literal text =>
      obtain ⟨_,t,hp,hrun⟩ | ⟨e,hp,-⟩ := ShellAct.bind_eq_some.1 hrun
      · obtain ⟨hv,rfl⟩ := ShellAct.pure_eq_some.1 hp
        obtain rfl := Except.ok.inj hv
        obtain ⟨τ,o',hτ,ho⟩ := ih.behind hrun
        exact ⟨τ,ho ▸ .literal hτ⟩
      · cases (ShellAct.pure_eq_some.1 hp).1
    | parameter x =>
      have hvalue := inner.expandPart_parameter x s
      split at hvalue
      · rename_i v hv
        obtain ⟨_,t,hp,hrun⟩ | ⟨e,hp,-⟩ := ShellAct.bind_eq_some.1 hrun
        · obtain ⟨⟨rfl⟩,rfl⟩ := Prod.mk.inj (Option.some.inj (hvalue.symm.trans hp))
          obtain ⟨τ,o',hτ,ho⟩ := ih.behind hrun
          exact ⟨τ,ho ▸ .parameter hv hτ⟩
        · cases hvalue.symm.trans hp
      · rename_i text hv
        obtain ⟨_,t,hp,-⟩ | ⟨e,hp,rfl⟩ := ShellAct.bind_eq_some.1 hrun
        · cases hvalue.symm.trans hp
        · obtain ⟨⟨rfl⟩,rfl⟩ := Prod.mk.inj (Option.some.inj (hvalue.symm.trans hp))
          exact ⟨_,.parameterFailed hv rfl⟩
    | command l =>
      obtain ⟨text,t,hp,hrun⟩ | ⟨e,hp,rfl⟩ := ShellAct.bind_eq_some.1 hrun
      · obtain ⟨τ,hτ⟩ := h.expandPart_ok hp
        obtain ⟨τ',o',hτ',ho⟩ := ih.behind hrun
        refine ⟨τ.map (Moment.inside (.substitution l)) ++ τ',?_⟩
        exact ho ▸ .replaced hτ hτ'
      · obtain ⟨τ,e',hτ,rfl⟩ := h.expandPart_error hp
        exact ⟨_,.unreplaced hτ⟩

theorem Covers.fragments (a : Reentry.Assembly) (rest : List Fragment) :
    engine.Follows (.fragments a rest) (engine.perform inner (.fragments a rest)) := by
  intro s o s' hrun
  simp only [perform] at hrun
  induction rest generalizing s a with
  | nil =>
    obtain ⟨rfl,rfl⟩ := ShellAct.pure_eq_some.1 hrun
    exact ⟨_,.assembled⟩
  | cons f rest ih =>
    rw [List.foldlM_cons] at hrun
    -- a fragment in which substitutions are made
    have htext : ∀ text, (f = .plain text ∨ f = .quoted text) →
        ((return a.add (← inner.expandText text) : ShellAct κ _) >>= fun a =>
          rest.foldlM inner.expandFragment a).run s = some (o,s') →
        ∃ τ, engine.Runs (.fragments a (f :: rest)) s τ (o.mapError .failed) s' := by
      intro text hf hrun
      simp only [Reentry.expandText,bind_assoc,pure_bind] at hrun
      obtain ⟨ts,t,hp,hrun⟩ | ⟨e,hp,rfl⟩ := ShellAct.bind_eq_some.1 hrun
      · obtain ⟨τ,hτ⟩ := h.parts _ _ _ _ hp
        obtain ⟨τ',hτ'⟩ := ih _ _ _ hrun
        exact ⟨_,.text hf hτ hτ'⟩
      · obtain ⟨τ,hτ⟩ := h.parts _ _ _ _ hp
        exact ⟨_,.textFailed hf hτ⟩
    cases f with
    | plain text => exact htext text (.inl rfl) hrun
    | quoted text => exact htext text (.inr rfl) hrun
    | verbatim text =>
      obtain ⟨τ,hτ⟩ := ih (a.add text) _ _ hrun
      exact ⟨_,.verbatim hτ⟩
    | space =>
      obtain ⟨τ,hτ⟩ := ih a.flush _ _ hrun
      exact ⟨_,.space hτ⟩

theorem Covers.program (p : Program κ Value) :
    engine.Follows (.program p) (engine.perform inner (.program p)) := by
  intro s o s' hrun
  simp only [perform] at hrun
  induction p generalizing s with
  | done v =>
    obtain ⟨rfl,rfl⟩ := Act.pure_eq_some.1 hrun
    exact ⟨_,.finished⟩
  | fail f =>
    obtain ⟨rfl,rfl⟩ := Act.pure_eq_some.1 hrun
    exact ⟨_,.failed⟩
  | ask r next ih =>
    simp only [Program.perform,map_bind] at hrun
    obtain ⟨a,t,ha,hrun⟩ := Act.bind_eq_some.1 hrun
    obtain ⟨τ',hτ'⟩ := ih a t _ hrun
    cases r with
    | execute l =>
      obtain ⟨τ,hτ⟩ := h.execute l _ _ _ ha
      exact ⟨_,.nested .execute hτ hτ'⟩
    | run path args =>
      obtain ⟨τ,hτ⟩ := h.run path args _ _ _ ha
      exact ⟨_,.nested .run hτ hτ'⟩
    | executeAlias name l =>
      obtain ⟨τ,hτ⟩ := h.expansion name l _ _ _ ha
      exact ⟨_,.nested .executeAlias hτ hτ'⟩
    | _ => exact ⟨_,.answered trivial ha hτ'⟩

theorem Covers.ran {path : String} {args : List String} {p : Path} {r : Registered κ}
    {body : Invocation → Program κ Value} {o : Except ShellError Value}
    (hr : s.resolve path = .ok (.command p r))
    (hb : (engine.command r.descriptor.action).Starts r.descriptor.verbatim args body)
    (hrun : (do
      return (← (body ⟨path,args⟩).perform (engine.answer inner)).mapError (·.raise path args) :
        Act κ (Except ShellError Value)) s.synced = some (o,s')) :
    ∃ τ, engine.Runs (.call path args) s τ (o.mapError .failed) s' := by
  obtain ⟨result,t,hp,hrun⟩ := Act.bind_eq_some.1 hrun
  obtain ⟨rfl,rfl⟩ := Act.pure_eq_some.1 hrun
  have hprogram : engine.perform inner (.program (body ⟨path,args⟩)) s.synced =
      some (.ok result,t) := by
    rw [perform,map_eq_pure_bind,Act.bind_eq_some]
    exact ⟨result,t,hp,rfl⟩
  obtain ⟨τ,hτ⟩ := h.program _ _ _ _ hprogram
  have hcourse := Runs.ran hr hb hτ
  cases result <;> exact ⟨_,hcourse⟩

theorem Covers.call (path : String) (args : List String) :
    engine.Follows (.call path args) (engine.perform inner (.call path args)) := by
  intro s o s' hrun
  simp only [perform,runPath] at hrun
  have hresolve := resolve_run path s
  cases hr : s.resolve path with
  | error e =>
    rw [hr] at hresolve
    obtain ⟨_,_,hx,-⟩ | ⟨_,hx,rfl⟩ := ShellAct.bind_eq_some.1 hrun
    · cases hresolve.symm.trans hx
    · obtain ⟨⟨rfl⟩,rfl⟩ := Prod.mk.inj (Option.some.inj (hresolve.symm.trans hx))
      exact ⟨_,.outrightFailed (.unresolved hr)⟩
  | ok resolution =>
    rw [hr] at hresolve
    obtain ⟨_,_,hx,hrun⟩ | ⟨_,hx,rfl⟩ := ShellAct.bind_eq_some.1 hrun
    case inr => cases hresolve.symm.trans hx
    obtain ⟨⟨rfl⟩,rfl⟩ := Prod.mk.inj (Option.some.inj (hresolve.symm.trans hx))
    cases resolution with
    | group g =>
      obtain ⟨rfl,rfl⟩ := ShellAct.throw_eq_some.1 hrun
      exact ⟨_,.outrightFailed (.group hr)⟩
    | aliased a =>
      obtain ⟨v,t,he,hrun⟩ | ⟨e,he,rfl⟩ := ShellAct.bind_eq_some.1 hrun
      · obtain ⟨rfl,rfl⟩ := ShellAct.pure_eq_some.1 hrun
        obtain ⟨τ,hτ⟩ := h.expansion _ _ _ _ _ he
        exact ⟨_,.aliased hr hτ⟩
      · obtain ⟨τ,hτ⟩ := h.expansion _ _ _ _ _ he
        exact ⟨_,.aliased hr hτ⟩
    | command p r =>
      simp only [runCommand] at hrun
      split_ifs at hrun with hv
      · exact h.ran hr (.verbatim hv) hrun
      · have hv : r.descriptor.verbatim = false := by simpa using hv
        split at hrun
        · rename_i e hb
          obtain ⟨rfl,rfl⟩ := ShellAct.throw_eq_some.1 hrun
          exact ⟨_,.outrightFailed (.usage hr hv hb)⟩
        · rename_i text hb
          simp only [ExceptT.run_mk] at hrun
          obtain ⟨written,t,hw,hrun⟩ := Act.bind_eq_some.1 hrun
          obtain ⟨rfl,rfl⟩ := Act.pure_eq_some.1 hrun
          simp only [Act.write] at hw
          split at hw
          · rename_i c hc
            obtain ⟨rfl,rfl⟩ := Prod.mk.inj (Option.some.inj hw)
            exact ⟨_,.outright (.helped hr hv hb hc)⟩
          · rename_i e hc
            obtain ⟨rfl,rfl⟩ := Prod.mk.inj (Option.some.inj hw)
            exact ⟨_,.outrightFailed (.unhelped hr hv hb hc)⟩
        · rename_i body hb
          exact h.ran hr (.bound hv hb) hrun

theorem Covers.statement (st : Statement) :
    engine.Follows (.statement st) (engine.perform inner (.statement st)) := by
  intro s o s' hrun
  simp only [perform,runStatement,Reentry.expand,bind_assoc,pure_bind] at hrun
  obtain ⟨a,t,hf,hrun⟩ | ⟨e,hf,rfl⟩ := ShellAct.bind_eq_some.1 hrun
  · obtain ⟨τ,hτ⟩ := h.fragments _ _ _ _ _ hf
    split at hrun
    · rename_i hwords
      obtain ⟨rfl,rfl⟩ := ShellAct.pure_eq_some.1 hrun
      exact ⟨_,.blank hτ hwords⟩
    · rename_i path args hwords
      obtain ⟨v,u,hc,hrun⟩ | ⟨e,hc,rfl⟩ := ShellAct.bind_eq_some.1 hrun
      · obtain ⟨rfl,rfl⟩ := ShellAct.pure_eq_some.1 hrun
        obtain ⟨τ',hτ'⟩ := h.call _ _ _ _ _ hc
        exact ⟨_,.called hτ hwords hτ'⟩
      · obtain ⟨τ',hτ'⟩ := h.call _ _ _ _ _ hc
        exact ⟨_,.called hτ hwords hτ'⟩
  · obtain ⟨τ,hτ⟩ := h.fragments _ _ _ _ _ hf
    exact ⟨_,.unexpanded hτ⟩

theorem Covers.statements (last : Option Value) (rest : List Statement) :
    engine.Follows (.statements last rest) (engine.perform inner (.statements last rest)) := by
  intro s o s' hrun
  simp only [perform] at hrun
  induction rest generalizing s last with
  | nil =>
    obtain ⟨rfl,rfl⟩ := ShellAct.pure_eq_some.1 hrun
    exact ⟨_,.done⟩
  | cons st rest ih =>
    rw [List.foldlM_cons,ExceptT.run_bind] at hrun
    obtain ⟨v,t,hnext,hrun⟩ := Act.bind_eq_some.1 hrun
    simp only [nextStatement,ExceptT.run_mk] at hnext
    obtain ⟨result,u,hst,hnext⟩ := Act.bind_eq_some.1 hnext
    obtain ⟨τ,hτ⟩ := h.statement st _ _ _ hst
    cases result with
    | ok value =>
      obtain ⟨rfl,rfl⟩ := Act.pure_eq_some.1 hnext
      obtain ⟨τ',hτ'⟩ := ih _ _ _ hrun
      exact ⟨_,.next hτ hτ'⟩
    | error e =>
      simp only [Act.session_bind] at hnext
      split_ifs at hnext with hpass
      · obtain ⟨written,w,hw,hnext⟩ := Act.bind_eq_some.1 hnext
        obtain ⟨rfl,rfl⟩ := Act.pure_eq_some.1 hnext
        simp only [Act.write] at hw
        split at hw
        · rename_i c hc
          obtain ⟨rfl,rfl⟩ := Prod.mk.inj (Option.some.inj hw)
          obtain ⟨τ',hτ'⟩ := ih _ _ _ hrun
          exact ⟨_,.reported hτ hpass hc hτ'⟩
        · rename_i io hc
          obtain ⟨rfl,rfl⟩ := Prod.mk.inj (Option.some.inj hw)
          obtain ⟨rfl,rfl⟩ := Act.pure_eq_some.1 hrun
          exact ⟨_,.unreported hτ hpass hc⟩
      · obtain ⟨rfl,rfl⟩ := Act.pure_eq_some.1 hnext
        obtain ⟨rfl,rfl⟩ := Act.pure_eq_some.1 hrun
        exact ⟨_,.stopped hτ hpass⟩

theorem Covers.line (l : String) :
    engine.Follows (.line l) (engine.perform inner (.line l)) := by
  intro s o s' hrun
  simp only [perform,runLine] at hrun
  split at hrun
  · rename_i e hp
    obtain ⟨rfl,rfl⟩ := ShellAct.throw_eq_some.1 hrun
    exact ⟨_,.unfinished hp⟩
  · rename_i parsed hp
    obtain ⟨τ,hτ⟩ := h.statements _ _ _ _ _ hrun
    exact ⟨_,.parsed hp hτ⟩

theorem Covers.task (t : Task κ) : engine.Follows t (engine.perform inner t) := by
  cases t with
  | line l => exact h.line l
  | statements last rest => exact h.statements last rest
  | statement st => exact h.statement st
  | fragments a rest => exact h.fragments a rest
  | parts rest => exact h.parts rest
  | substitution l => exact h.substitution l
  | call path args => exact h.call path args
  | expansion name l => exact h.expansion name l
  | program p => exact h.program p

omit h in
theorem covers_reentry (engine : Engine κ) (n : Nat) : engine.Covers (engine.reentry n) := by
  induction n with
  | zero =>
    constructor
    · intro _ _ _ _ hrun
      cases hrun
    · intro _ _ _ _ _ hrun
      cases hrun
  | succ n ih => exact ⟨ih.line,ih.call⟩

omit h in
/-- Every task that is performed within some depth takes a course. -/
theorem follows_perform (engine : Engine κ) (n : Nat) (t : Task κ) :
    engine.Follows t (engine.perform (engine.reentry n) t) := (engine.covers_reentry n).task t

end Engine
end CommandShell
