import CommandShell.Proofs.Run.Steady

/-! Courses from corresponding shells.
A course asks little of its shell. Where two shells give the same answers, and keep doing so
whatever is done to both of them, a course from the one is taken from the other too. Even the policy
for errors may differ if no error ever asks for it. -/
namespace CommandShell

variable {κ : Type}

namespace Shell

def driven (s : Shell κ) (console : Console → Console) (depth : Nat → Nat) : Shell κ :=
  s.updated fun t => { t with console := console t.console, aliasDepth := depth t.aliasDepth }

/-- What a session reads between the requests of commands is the same, but for its policy. -/
structure Twin (s u : Shell κ) : Prop where
  console : u.session.console = s.session.console
  depth : u.session.aliasDepth = s.session.aliasDepth
  limit : u.session.config.maxAliasDepth = s.session.config.maxAliasDepth
  evaluator : u.session.evaluator = s.session.evaluator
  environment : u.session.environment = s.session.environment
  resolve : ∀ path, u.resolve path = s.resolve path

end Shell

def SamePolicy (R : Shell κ → Shell κ → Prop) : Prop :=
  ∀ s u, R s u → u.session.config.onError = s.session.config.onError

/-- If the policies differ, the course comes to a value from a shell that stops at errors, and so
does not ask for it. -/
def OnePolicy (R : Shell κ → Shell κ → Prop) {α : Type} (x : Except Halt α) : Prop :=
  SamePolicy R ∨ (∀ s u, R s u → s.session.config.onError = .stop) ∧ ∃ v, x = .ok v

section

variable {R : Shell κ → Shell κ → Prop} {α β : Type} {x : Except Halt α} {y z : Halt}

theorem SamePolicy.passes_iff (h : SamePolicy R) {s u : Shell κ} (hu : R s u) :
    y.Passes u.session.config ↔ y.Passes s.session.config := by
  cases y with
  | cut => exact Iff.rfl
  | failed e => rw [Halt.Passes,Halt.Passes,h _ _ hu]

namespace OnePolicy

theorem ok (h : OnePolicy R x) (v : β) : OnePolicy R (.ok v : Except Halt β) :=
  h.imp_right fun h => ⟨h.1,v,rfl⟩

theorem of_map {f : α → β} (h : OnePolicy R (x.map f)) : OnePolicy R x := by
  refine h.imp_right fun ⟨hs,v,hv⟩ => ⟨hs,?_⟩
  cases x with
  | ok u => exact ⟨u,rfl⟩
  | error y => cases hv

theorem same (h : OnePolicy R (.error y : Except Halt α)) : SamePolicy R := by
  obtain h | ⟨-,v,hv⟩ := h
  · exact h
  · cases hv

theorem error (h : OnePolicy R (.error y : Except Halt α)) :
    OnePolicy R (.error z : Except Halt β) := .inl h.same

theorem same_of_passes (h : OnePolicy R x) {s s' u : Shell κ} (hu : R s u) (hs : s.Level s')
    (hy : y.Passes s'.session.config) : SamePolicy R := by
  obtain h | ⟨hstop,-⟩ := h
  · exact h
  · cases y with
    | cut => exact hy.elim
    | failed e =>
      have hproceed := hy.1
      rw [hs.config,hstop _ _ hu] at hproceed
      cases hproceed

end OnePolicy
end

namespace Engine

variable {engine engine' : Engine κ} {m : Manner κ} {R : Shell κ → Shell κ → Prop}
  {s s' s'' u : Shell κ} {t t' t'' : Task κ} {τ : List (Moment κ)}

/-- Corresponding shells are twins, in them commands do the same and requests in the manner get the
same answers, and what is done to both leaves them corresponding. -/
structure Matches (engine engine' : Engine κ) (m : Manner κ) (R : Shell κ → Shell κ → Prop) :
    Prop where
  twin : ∀ {s u}, R s u → s.Twin u
  driven : ∀ {s u} console depth, R s u → R (s.driven console depth) (u.driven console depth)
  synced : ∀ {s u}, R s u → R s.synced u.synced
  command : ∀ {s u path p r}, R s u → s.resolve path = .ok (.command p r) →
    engine'.command r.descriptor.action = engine.command r.descriptor.action ∧
      (engine.command r.descriptor.action).Keeps m
  direct : ∀ {r}, m.asks r → r.Direct
  answer : ∀ {r s u s'} {a : r.Answer}, m.asks r → R s u →
    engine.answer (engine.reentry 0) r s = some (a,s') →
    m.hears r a ∧ ∃ u', engine'.answer (engine'.reentry 0) r u = some (a,u') ∧ R s' u'

/-- From every shell that corresponds to `s` the task comes to the same, and to a shell that
corresponds to `s'`. -/
def Mirrors (engine' : Engine κ) (R : Shell κ → Shell κ → Prop) (t : Task κ) (s : Shell κ)
    (x : Except Halt t.Yield) (s' : Shell κ) : Prop :=
  ∀ u, R s u → ∃ τ u', engine'.Runs t u τ x u' ∧ R s' u'

namespace Mirrors

theorem of_runs {x : Except Halt t.Yield} (h : ∀ u, R s u → ∃ τ, engine'.Runs t u τ x u) :
    engine'.Mirrors R t s x s := by
  intro u hu
  obtain ⟨τ,h⟩ := h u hu
  exact ⟨τ,u,h,hu⟩

/-- A rule with one premise. -/
theorem map {x : Except Halt t.Yield} {y : Except Halt t'.Yield} (h : engine'.Mirrors R t s x s')
    (hrule : ∀ {u τ u'}, R s u → R s' u' → engine'.Runs t u τ x u' →
      ∃ τ', engine'.Runs t' u τ' y u') : engine'.Mirrors R t' s y s' := by
  intro u hu
  obtain ⟨τ,u',h,hu'⟩ := h u hu
  obtain ⟨τ',h'⟩ := hrule hu hu' h
  exact ⟨τ',u',h',hu'⟩

/-- A rule with two premises, one after the other. -/
theorem seq {x : Except Halt t.Yield} {y : Except Halt t'.Yield} {z : Except Halt t''.Yield}
    (h : engine'.Mirrors R t s x s') (h' : engine'.Mirrors R t' s' y s'')
    (hrule : ∀ {u τ u' τ' u''}, engine'.Runs t u τ x u' → engine'.Runs t' u' τ' y u'' →
      ∃ τ₀, engine'.Runs t'' u τ₀ z u'') : engine'.Mirrors R t'' s z s'' := by
  intro u hu
  obtain ⟨τ,u',h,hu'⟩ := h u hu
  obtain ⟨τ',u'',h',hu''⟩ := h' u' hu'
  obtain ⟨τ₀,h₀⟩ := hrule h h'
  exact ⟨τ₀,u'',h₀,hu''⟩

theorem stopped {st : Statement} {rest : List Statement} {last : Option Value} {x : Halt}
    (h : engine'.Mirrors R (.statement st) s (.error x) s') (hR : SamePolicy R)
    (hx : ¬x.Passes s'.session.config) :
    engine'.Mirrors R (.statements last (st :: rest)) s (.error x) s' :=
  h.map fun _ hu' h => ⟨_,.stopped h fun hp => hx ((hR.passes_iff hu').1 hp)⟩

end Mirrors

namespace Matches

variable (hR : engine.Matches engine' m R)
include hR

theorem withConsole (c : Console) (hu : R s u) : R (s.withConsole c) (u.withConsole c) :=
  hR.driven (fun _ => c) id hu

section Line

variable {st : Statement} {rest : List Statement} {last : Option Value}

theorem reported {e : ShellError} {c : Console} {x : Except Halt (Option Value)}
    (h : engine'.Mirrors R (.statement st) s (.error (.failed e)) s')
    (hr : engine'.Mirrors R (.statements (some (.status 1)) rest) (s'.withConsole c) x s'')
    (hx : SamePolicy R) (hp : (Halt.failed e).Passes s'.session.config)
    (hw : s'.session.console.write .errors (Text.encode (e.message ++ "\n")) = .ok c) :
    engine'.Mirrors R (.statements last (st :: rest)) s x s'' := by
  intro u hu
  obtain ⟨τ,u',h,hu'⟩ := h u hu
  obtain ⟨τ',u'',h',hu''⟩ := hr _ (hR.withConsole c hu')
  rw [← (hR.twin hu').console] at hw
  exact ⟨_,u'',.reported h ((hx.passes_iff hu').2 hp) hw h',hu''⟩

theorem unreported {e : ShellError} {io : IoError}
    (h : engine'.Mirrors R (.statement st) s (.error (.failed e)) s')
    (hx : SamePolicy R) (hp : (Halt.failed e).Passes s'.session.config)
    (hw : s'.session.console.write .errors (Text.encode (e.message ++ "\n")) = .error io) :
    engine'.Mirrors R (.statements last (st :: rest)) s (.error (.failed (.io io))) s' := by
  refine h.map fun _ hu' h => ?_
  rw [← (hR.twin hu').console] at hw
  exact ⟨_,.unreported h ((hx.passes_iff hu').2 hp) hw⟩

end Line

section Call

variable {path name l : String} {args : List String}

theorem evaluated (x : String) (hu : R s u) :
    u.session.evaluator x u.session.environment = s.session.evaluator x s.session.environment := by
  rw [(hR.twin hu).evaluator,(hR.twin hu).environment]

theorem captured {x : Except Halt (Option Value)}
    (h : engine'.Mirrors R (.line l) s.capture x s') : engine'.Mirrors R (.substitution l) s
      (x.map (Task.substituted s'.session.console.release.1)) s'.release := by
  intro u hu
  obtain ⟨τ,u',h,hu'⟩ := h _ (hR.driven Console.capture id hu)
  rw [← (hR.twin hu').console]
  exact ⟨τ,u'.release,.captured h,hR.driven (·.release.2) id hu'⟩

theorem expanded {x : Except Halt (Option Value)}
    (hd : s.session.aliasDepth < s.session.config.maxAliasDepth)
    (h : engine'.Mirrors R (.line l) s.deeper x s') :
    engine'.Mirrors R (.expansion name l) s x s'.shallower := by
  intro u hu
  obtain ⟨τ,u',h,hu'⟩ := h _ (hR.driven id (· + 1) hu)
  rw [← (hR.twin hu).depth,← (hR.twin hu).limit] at hd
  exact ⟨_,u'.shallower,.expanded hd h,hR.driven id (· - 1) hu'⟩

theorem refused (hd : s.session.config.maxAliasDepth ≤ s.session.aliasDepth) :
    engine'.Mirrors R (.expansion name l) s
      (.error (.failed (.aliasDepthExceeded name s.session.config.maxAliasDepth))) s := by
  refine .of_runs fun u hu => ?_
  rw [← (hR.twin hu).depth,← (hR.twin hu).limit] at hd
  rw [← (hR.twin hu).limit]
  exact ⟨_,.refused hd⟩

theorem outright {o : Except ShellError Value} (h : engine.Outright path args s o s')
    (hu : R s u) : ∃ u', engine'.Outright path args u o u' ∧ R s' u' := by
  have hresolve := (hR.twin hu).resolve path
  have hsynced := hR.synced hu
  cases h with
  | unresolved h => exact ⟨_,.unresolved (hresolve.trans h),hsynced⟩
  | group h => exact ⟨_,.group (hresolve.trans h),hsynced⟩
  | usage h hv hb => exact ⟨_,.usage (hresolve.trans h) hv ((hR.command hu h).1 ▸ hb),hsynced⟩
  | helped h hv hb hw =>
    rw [← (hR.twin hu).console] at hw
    exact ⟨_,.helped (hresolve.trans h) hv ((hR.command hu h).1 ▸ hb) hw,
      hR.withConsole _ hsynced⟩
  | unhelped h hv hb hw =>
    rw [← (hR.twin hu).console] at hw
    exact ⟨_,.unhelped (hresolve.trans h) hv ((hR.command hu h).1 ▸ hb) hw,hsynced⟩

theorem aliased {a : Alias} {x : Except Halt (Option Value)}
    (hr : s.resolve path = .ok (.aliased a))
    (h : engine'.Mirrors R (.expansion a.name (a.expand args)) s.synced x s') :
    engine'.Mirrors R (.call path args) s (x.map (·.getD .null)) s' := by
  intro u hu
  obtain ⟨τ,u',h,hu'⟩ := h _ (hR.synced hu)
  exact ⟨_,u',.aliased (((hR.twin hu).resolve path).trans hr) h,hu'⟩

variable {p : Path} {r : Registered κ} {body : Invocation → Program κ Value}

theorem ran {result : Except Failure Value} (hr : s.resolve path = .ok (.command p r))
    (hb : (engine.command r.descriptor.action).Starts r.descriptor.verbatim args body)
    (h : engine'.Mirrors R (.program (body ⟨path,args⟩)) s.synced (.ok result) s') :
    engine'.Mirrors R (.call path args) s
      (result.mapError fun f => .failed (f.raise path args)) s' := by
  intro u hu
  obtain ⟨τ,u',h,hu'⟩ := h _ (hR.synced hu)
  rw [← (hR.command hu hr).1] at hb
  exact ⟨_,u',.ran (((hR.twin hu).resolve path).trans hr) hb h,hu'⟩

theorem ranCut {x : Halt} (hr : s.resolve path = .ok (.command p r))
    (hb : (engine.command r.descriptor.action).Starts r.descriptor.verbatim args body)
    (h : engine'.Mirrors R (.program (body ⟨path,args⟩)) s.synced (.error x) s') :
    engine'.Mirrors R (.call path args) s (.error x) s' := by
  intro u hu
  obtain ⟨τ,u',h,hu'⟩ := h _ (hR.synced hu)
  rw [← (hR.command hu hr).1] at hb
  exact ⟨_,u',.ranCut (((hR.twin hu).resolve path).trans hr) hb h,hu'⟩

end Call

/-- The courses of tasks that keep to the manner are taken from all corresponding shells. -/
theorem runs {x : Except Halt t.Yield} (h : engine.Runs t s τ x s') (ht : t.Keeps m)
    (hx : OnePolicy R x) : engine'.Mirrors R t s x s' := by
  induction h with
  | cut => exact .of_runs fun _ _ => ⟨_,.cut⟩
  | unfinished h => exact .of_runs fun _ _ => ⟨_,.unfinished h⟩
  | parsed hp _ ih => exact (ih trivial hx).map fun _ _ h => ⟨_,.parsed hp h⟩
  | done => exact .of_runs fun _ _ => ⟨_,.done⟩
  | next _ _ ih ih' => exact (ih trivial (hx.ok _)).seq (ih' trivial hx) fun h h' => ⟨_,.next h h'⟩
  | stopped _ hp ih => exact (ih trivial hx).stopped hx.same hp
  | reported h hp hw _ ih ih' =>
    intro u hu
    have hsame := hx.same_of_passes hu h.level hp
    exact hR.reported (ih trivial (.inl hsame)) (ih' trivial hx) hsame hp hw u hu
  | unreported _ hp hw ih => exact hR.unreported (ih trivial hx.error) hx.same hp hw
  | unexpanded _ ih => exact (ih trivial hx.error).map fun _ _ h => ⟨_,.unexpanded h⟩
  | blank _ ha ih => exact (ih trivial (hx.ok _)).map fun _ _ h => ⟨_,.blank h ha⟩
  | called _ ha _ ih ih' =>
    exact (ih trivial (hx.ok _)).seq (ih' trivial hx.of_map) fun h h' => ⟨_,.called h ha h'⟩
  | assembled => exact .of_runs fun _ _ => ⟨_,.assembled⟩
  | space _ ih => exact (ih trivial hx).map fun _ _ h => ⟨_,.space h⟩
  | verbatim _ ih => exact (ih trivial hx).map fun _ _ h => ⟨_,.verbatim h⟩
  | text hf _ _ ih ih' =>
    exact (ih trivial (hx.ok _)).seq (ih' trivial hx) fun h h' => ⟨_,.text hf h h'⟩
  | textFailed hf _ ih => exact (ih trivial hx.error).map fun _ _ h => ⟨_,.textFailed hf h⟩
  | split => exact .of_runs fun _ _ => ⟨_,.split⟩
  | literal _ ih => exact (ih trivial hx.of_map).map fun _ _ h => ⟨_,.literal h⟩
  | parameter hv _ ih =>
    exact (ih trivial hx.of_map).map fun hu _ h =>
      ⟨_,.parameter ((hR.evaluated _ hu).trans hv) h⟩
  | parameterFailed hv he =>
    exact .of_runs fun _ hu => ⟨_,.parameterFailed ((hR.evaluated _ hu).trans hv) he⟩
  | replaced _ _ ih ih' =>
    exact (ih trivial (hx.ok _)).seq (ih' trivial hx.of_map) fun h h' => ⟨_,.replaced h h'⟩
  | unreplaced _ ih => exact (ih trivial hx.error).map fun _ _ h => ⟨_,.unreplaced h⟩
  | captured _ ih => exact hR.captured (ih trivial hx.of_map)
  | outright h =>
    intro u hu
    obtain ⟨u',h,hu'⟩ := hR.outright h hu
    exact ⟨_,u',.outright h,hu'⟩
  | outrightFailed h =>
    intro u hu
    obtain ⟨u',h,hu'⟩ := hR.outright h hu
    exact ⟨_,u',.outrightFailed h,hu'⟩
  | aliased hr _ ih => exact hR.aliased hr (ih trivial hx.of_map)
  | ran hr hb _ ih =>
    intro u hu
    exact hR.ran hr hb (ih ((hR.command hu hr).2 _ _ _ hb _) (hx.ok _)) u hu
  | ranCut hr hb _ ih =>
    intro u hu
    exact hR.ranCut hr hb (ih ((hR.command hu hr).2 _ _ _ hb _) hx.error) u hu
  | refused hd => exact hR.refused hd
  | expanded hd _ ih => exact hR.expanded hd (ih trivial hx)
  | finished => exact .of_runs fun _ _ => ⟨_,.finished⟩
  | failed => exact .of_runs fun _ _ => ⟨_,.failed⟩
  | @answered r next s a s' τ x s'' hd ha _ ih =>
    intro u hu
    obtain ⟨hheard,u',ha',hu'⟩ := hR.answer ht.1 hu ha
    obtain ⟨τ',u'',h,hu''⟩ := ih (ht.2 _ hheard) hx u' hu'
    exact ⟨_,u'',.answered hd ha' h,hu''⟩
  | nested hr | nestedCut hr => cases hr <;> exact (hR.direct ht.1).elim

end Matches
end Engine
end CommandShell
