import CommandShell.Proofs.Run.Depth
import CommandShell.Proofs.Run.Plain

/-! What becomes of errors.
An error that does not let its line go on is the last thing that happens, through all aliases and
substitutions that it arose in; what the whole run fails with is that error, wrapped once for every
substitution around it. Requests to exit are never wrapped. -/
namespace CommandShell

variable {κ : Type}

theorem Frame.exitCode?_carry (f : Frame) (e : ShellError) :
    (f.carry e).exitCode? = e.exitCode? := by
  cases f with
  | substitution l => cases e <;> rfl
  | _ => rfl

theorem Frame.isRecoverable_of_carry {f : Frame} {e : ShellError}
    (h : (f.carry e).isRecoverable = true) : e.isRecoverable = true := by
  cases f with
  | substitution l => cases e <;> cases h
  | _ => exact h

theorem ShellError.eq_exit_of_code {e : ShellError} {code : Int32} (h : e.exitCode? = some code) :
    e = .exit code := by
  cases e <;> cases h
  rfl

namespace Failure

variable {f : Failure} {path : String} {args : List String}

theorem raise_of_own (hs : ∀ e, f.origin ≠ .shell e) (hx : ∀ code, f.origin ≠ .exit code) :
    f.raise path args = .execution path args f := by
  unfold raise
  split
  · exact absurd ‹_› (hs _)
  · exact absurd ‹_› (hx _)
  · rfl

theorem eq_of_raise_eq {path' : String} {args' : List String} {f' : Failure}
    (h : f.raise path args = .execution path' args' f') :
    (path,args,f) = (path',args',f') ∨ f.origin = .shell (.execution path' args' f') := by
  unfold raise at h
  split at h
  · exact .inr (h ▸ ‹_›)
  · cases h
  · cases h
    exact .inl rfl

end Failure

namespace Moment

variable {m : Moment κ} {e : ShellError}

theorem exitCode?_carried (m : Moment κ) (e : ShellError) :
    (m.carried e).exitCode? = e.exitCode? := by
  unfold carried
  induction m.around with
  | nil => rfl
  | cons f fs ih => exact (f.exitCode?_carry _).trans ih

theorem isRecoverable_of_carried (h : (m.carried e).isRecoverable = true) :
    e.isRecoverable = true := by
  unfold carried at h
  generalize m.around = fs at h
  induction fs with
  | nil => exact h
  | cons f fs ih => exact ih (Frame.isRecoverable_of_carry h)

theorem carried_ne_execution {l : String} (h : .substitution l ∈ m.around) (path : String)
    (args : List String) (f : Failure) : m.carried e ≠ .execution path args f := by
  unfold carried
  generalize m.around = fs at h
  induction fs with
  | nil => cases h
  | cons f fs ih =>
    cases f with
    | substitution l' =>
      rw [List.foldr_cons]
      cases fs.foldr Frame.carry e <;> nofun
    | _ => exact ih (by simpa using h)

theorem carried_of_no_substitution (h : ∀ l, .substitution l ∉ m.around) : m.carried e = e := by
  unfold carried
  generalize m.around = fs at h
  induction fs with
  | nil => rfl
  | cons f fs ih =>
    have hrest := ih fun l hl => h l (List.mem_cons_of_mem _ hl)
    cases f with
    | substitution l => exact absurd List.mem_cons_self (h l)
    | _ => exact hrest

end Moment

namespace Halt

def of? {α : Type} : Except Halt α → Option Halt
  | .ok _ => none
  | .error x => some x

theorem of?_map {α β : Type} (f : α → β) (o : Except Halt α) : of? (o.map f) = of? o := by
  cases o <;> rfl

theorem Passes.of_carried {c : Config} {m : Moment κ} {e : ShellError}
    (h : (failed (m.carried e)).Passes c) : (failed e).Passes c :=
  ⟨h.1,m.isRecoverable_of_carried h.2⟩

end Halt

/-- Every error in it lets its line go on. -/
def Quiet (c : Config) (τ : List (Moment κ)) : Prop :=
  ∀ m ∈ τ, ∀ e, m.what.error? = some e → (Halt.failed e).Passes c

/-- The course fails with the error of its last moment, or does not fail; no error before lets its
line not go on. -/
inductive Traced (c : Config) : List (Moment κ) → Option Halt → Prop
  | quiet {τ x} (h : Quiet c τ) (hx : ∀ e, x ≠ some (.failed e)) : Traced c τ x
  | failed {τ m e} (h : Quiet c τ) (hm : m.what.error? = some e) :
      Traced c (τ ++ [m]) (some (.failed (m.carried e)))

section Traces

variable {c : Config} {τ τ' : List (Moment κ)} {m : Moment κ} {x : Option Halt} {e : ShellError}

theorem Quiet.append (h : Quiet c τ) (h' : Quiet c τ') : Quiet c (τ ++ τ') :=
  List.forall_mem_append.2 ⟨h,h'⟩

theorem quiet_nil : Quiet c ([] : List (Moment κ)) := List.forall_mem_nil _

theorem quiet_singleton (hm : m.what.error? = none) : Quiet c [m] := by
  intro m' hm' e he
  obtain rfl := List.mem_singleton.1 hm'
  cases hm.symm.trans he

theorem Quiet.inside (f : Frame) (h : Quiet c τ) : Quiet c (τ.map (Moment.inside f)) := by
  intro m hm
  obtain ⟨m',hm',rfl⟩ := List.mem_map.1 hm
  exact h m' hm'

namespace Traced

theorem nil (hx : ∀ e, x ≠ some (.failed e)) : Traced c ([] : List (Moment κ)) x :=
  .quiet quiet_nil hx

theorem last (hm : m.what.error? = some e) : Traced c [m] (some (.failed (m.carried e))) :=
  failed quiet_nil hm

theorem raised (s : Shell κ) (e : ShellError) :
    Traced c [.now s (.raised e)] (some (.failed e)) :=
  @last κ c (.now s (.raised e)) e rfl

theorem quiet_of_done (h : Traced c τ none) : Quiet c τ := by
  cases h with
  | quiet h _ => exact h

theorem quiet_of_passes (h : Traced c τ (some (.failed e))) (he : (Halt.failed e).Passes c) :
    Quiet c τ := by
  cases h with
  | quiet h _ => exact h
  | failed h hm =>
    refine h.append fun m' hm' e' he' => ?_
    obtain rfl := List.mem_singleton.1 hm'
    cases hm.symm.trans he'
    exact he.of_carried

theorem after (h : Quiet c τ) (h' : Traced c τ' x) : Traced c (τ ++ τ') x := by
  cases h' with
  | quiet h' hx => exact .quiet (h.append h') hx
  | failed h' hm =>
    rw [← List.append_assoc]
    exact .failed (h.append h') hm

theorem cons (hm : m.what.error? = none) (h : Traced c τ x) : Traced c (m :: τ) x :=
  after (quiet_singleton hm) h

theorem append (h : Traced c τ none) (h' : Traced c τ' x) : Traced c (τ ++ τ') x :=
  after h.quiet_of_done h'

theorem inside (f : Frame) (h : Traced c τ x) :
    Traced c (τ.map (Moment.inside f)) (x.map (.carry f)) := by
  cases h with
  | quiet h hx =>
    refine .quiet (h.inside f) fun e he => ?_
    obtain ⟨y,rfl,hy⟩ := Option.map_eq_some_iff.1 he
    cases y with
    | cut => cases hy
    | failed e' => exact hx e' rfl
  | @failed τ m e h hm =>
    rw [List.map_append]
    exact @failed κ c _ (m.inside f) e (h.inside f) hm

theorem inside_of_carry {f : Frame} (hf : ∀ e, f.carry e = e) (h : Traced c τ x) :
    Traced c (τ.map (Moment.inside f)) x := by
  have hx : x.map (.carry f) = x := by
    match x with
    | none => rfl
    | some .cut => rfl
    | some (.failed e) => exact congrArg (fun e => some (Halt.failed e)) (hf e)
  exact hx ▸ h.inside f

theorem last_of_error (h : Traced c τ x) (hm : m ∈ τ) (he : m.what.error? = some e)
    (hc : ¬(Halt.failed e).Passes c) :
    τ.getLast? = some m ∧ x = some (.failed (m.carried e)) := by
  cases h with
  | quiet h _ => exact absurd (h m hm e he) hc
  | failed h hm' =>
    obtain hm | hm := List.mem_append.1 hm
    · exact absurd (h m hm e he) hc
    · obtain rfl := List.mem_singleton.1 hm
      cases hm'.symm.trans he
      exact ⟨List.getLast?_concat,rfl⟩

theorem exists_last (h : Traced c τ (some (.failed e))) :
    ∃ m e', τ.getLast? = some m ∧ m.what.error? = some e' ∧ e = m.carried e' := by
  generalize hx : some (Halt.failed e) = x at h
  cases h with
  | quiet _ hx' => exact absurd hx.symm (hx' e)
  | failed _ hm =>
    cases hx
    exact ⟨_,_,List.getLast?_concat,hm,rfl⟩

end Traced
end Traces

namespace Engine

variable {engine : Engine κ} {t : Task κ} {s s' : Shell κ} {τ : List (Moment κ)}
  {x : Except Halt t.Yield}

/-- Where commands run nothing else, whatever a task fails with is traced to the last moment. -/
theorem Runs.traced (hengine : ∀ a, (engine.command a).Direct) (h : engine.Runs t s τ x s')
    (ht : t.Direct) : Traced s.session.config τ (Halt.of? x) := by
  induction h with
  | cut | done | assembled | split | finished | failed => exact .nil nofun
  | unfinished => exact .cons rfl (.raised _ _)
  | parsed _ _ ih | unexpanded _ ih => exact .cons rfl (ih trivial)
  | blank _ _ ih => exact .cons rfl (ih trivial)
  | space _ ih | verbatim _ ih | stopped _ _ ih | textFailed _ _ ih => exact ih trivial
  | next h _ ih ih' | text _ h _ ih ih' =>
    exact (ih trivial).append (h.level.config ▸ ih' trivial)
  | reported h hx _ _ ih ih' =>
    have hquiet := (ih trivial).quiet_of_passes (h.level.config ▸ hx)
    exact .after hquiet (.cons rfl (h.level.config ▸ ih' trivial))
  | unreported h hx _ ih =>
    exact .after ((ih trivial).quiet_of_passes (h.level.config ▸ hx)) (.raised _ _)
  | called h _ _ ih ih' =>
    rw [Halt.of?_map]
    exact .append (.cons rfl (ih trivial)) (h.level.config ▸ ih' trivial)
  | literal _ ih | parameter _ _ ih | captured _ ih =>
    rw [Halt.of?_map]
    exact ih trivial
  | parameterFailed | refused => exact .raised _ _
  | replaced h _ ih ih' =>
    rw [Halt.of?_map]
    exact ((ih trivial).inside _).append (h.level.config ▸ ih' trivial)
  | unreplaced _ ih => exact (ih trivial).inside _
  | outright => exact .cons rfl (.nil nofun)
  | outrightFailed => exact .cons rfl (.raised _ _)
  | aliased _ _ ih =>
    rw [Halt.of?_map]
    exact .cons rfl (ih trivial)
  | @ran path args s p r body τ result s' _ hb h ih =>
    have hquiet := ((ih (hengine _ _ _ _ hb _)).quiet_of_done).inside (.command path args)
    refine .after (.append (quiet_singleton rfl) hquiet) ?_
    cases result with
    | ok v => exact .cons rfl (.nil nofun)
    | error f => exact @Traced.last κ _ (.now s' (.ended _ path args (.error f))) _ rfl
  | ranCut _ hb _ ih =>
    exact .cons rfl ((ih (hengine _ _ _ _ hb _)).inside_of_carry fun _ => rfl)
  | expanded _ _ ih => exact (ih trivial).inside_of_carry fun _ => rfl
  | answered hd ha _ ih =>
    exact .cons rfl ((level_answer hd ha).config ▸ ih (ht.2 _))
  | nested hr | nestedCut hr => cases hr <;> exact ht.1.elim

/-- The words of a statement of the course are the path and the arguments of a call that is made in
the shell `s`. -/
def Worded (engine : Engine κ) (τ : List (Moment κ)) (around : List Frame) (s : Shell κ)
    (path : String) (args : List String) : Prop :=
  ∃ st s₀ τ₀ a, ⟨around,s₀,.statement st⟩ ∈ τ ∧
    engine.Runs (.fragments ⟨[],""⟩ st.fragments) s₀ τ₀ (.ok a) s ∧ a.flush.words = path :: args

/-- The command was called in the course by a path that stands for it, and what it runs on the
arguments came to this result. -/
def Invoked (engine : Engine κ) (τ : List (Moment κ)) (m : Moment κ) (action : κ) (path : String)
    (args : List String) (result : Except Failure Value) : Prop :=
  ∃ s p r body τ₀, ⟨m.around,s,.call path args⟩ ∈ τ ∧ s.resolve path = .ok (.command p r) ∧
    r.descriptor.action = action ∧
    (engine.command action).Starts r.descriptor.verbatim args body ∧
    engine.Runs (.program (body ⟨path,args⟩)) s.synced τ₀ (.ok result) m.shell

/-- Calls come from statements, results from commands that were called, and no other error is the
failure of a command. -/
def Explained (engine : Engine κ) (τ : List (Moment κ)) (m : Moment κ) : Prop :=
  match m.what with
  | .call path args => engine.Worded τ m.around m.shell path args
  | .ended action path args result => engine.Invoked τ m action path args result
  | .raised e => ∀ path args f, e ≠ .execution path args f
  | _ => True

def Coherent (engine : Engine κ) (τ : List (Moment κ)) : Prop := ∀ m ∈ τ, engine.Explained τ m

def Explains (engine : Engine κ) : Task κ → Shell κ → List (Moment κ) → Prop
  | .call path args,s,τ => ∀ m ∈ τ, m = .now s (.call path args) ∨ engine.Explained τ m
  | _,_,τ => engine.Coherent τ

section Explanations

variable {τ' : List (Moment κ)} {m : Moment κ}

theorem Explained.transport {m' : Moment κ} (h : engine.Explained τ m) (hwhat : m'.what = m.what)
    (hshell : m'.shell = m.shell)
    (hτ : ∀ s what, ⟨m.around,s,what⟩ ∈ τ → ⟨m'.around,s,what⟩ ∈ τ') :
    engine.Explained τ' m' := by
  unfold Explained at h ⊢
  rw [hwhat,hshell]
  cases hw : m.what with
  | call path args =>
    simp only [hw] at h
    obtain ⟨st,s₀,τ₀,a,hst,hrest⟩ := h
    exact ⟨st,s₀,τ₀,a,hτ _ _ hst,hrest⟩
  | ended action path args result =>
    simp only [hw] at h
    obtain ⟨s,p,r,body,τ₀,hcall,hr,ha,hb,hp⟩ := h
    exact ⟨s,p,r,body,τ₀,hτ _ _ hcall,hr,ha,hb,hshell ▸ hp⟩
  | raised e => simpa only [hw] using h
  | _ => trivial

theorem Explained.mono (h : engine.Explained τ m) (hτ : τ ⊆ τ') : engine.Explained τ' m :=
  h.transport rfl rfl fun _ _ hm => hτ hm

theorem Explained.inside (f : Frame) (h : engine.Explained τ m) :
    engine.Explained (τ.map (Moment.inside f)) (m.inside f) :=
  h.transport rfl rfl fun _ _ hm => List.mem_map_of_mem hm

theorem Coherent.nil : engine.Coherent [] := List.forall_mem_nil _

theorem Coherent.append (h : engine.Coherent τ) (h' : engine.Coherent τ') :
    engine.Coherent (τ ++ τ') :=
  List.forall_mem_append.2 ⟨fun m hm => (h m hm).mono (List.subset_append_left _ _),
    fun m hm => (h' m hm).mono (List.subset_append_right _ _)⟩

theorem Coherent.cons (hm : engine.Explained (m :: τ) m) (h : engine.Coherent τ) :
    engine.Coherent (m :: τ) :=
  List.forall_mem_cons.2 ⟨hm,fun m' hm' => (h m' hm').mono (List.subset_cons_self _ _)⟩

theorem Coherent.inside (f : Frame) (h : engine.Coherent τ) :
    engine.Coherent (τ.map (Moment.inside f)) := by
  intro m hm
  obtain ⟨m',hm',rfl⟩ := List.mem_map.1 hm
  exact (h m' hm').inside f

end Explanations

theorem Outright.error_ne_execution {path : String} {args : List String} {e : ShellError}
    (h : engine.Outright path args s (.error e) s') (path' : String) (args' : List String)
    (f : Failure) : e ≠ .execution path' args' f := by
  cases h with
  | unresolved h =>
    simp only [Shell.resolve,Session.resolve] at h
    split at h <;> cases h
    nofun
  | _ => nofun

/-- Where commands run nothing else, every course explains its moments. -/
theorem Runs.explains (hengine : ∀ a, (engine.command a).Direct) (h : engine.Runs t s τ x s')
    (ht : t.Direct) : engine.Explains t s τ := by
  induction h with
  | @cut t s =>
    cases t with
    | call => exact fun _ hm => nomatch hm
    | _ => exact .nil
  | done | assembled | split | finished | failed => exact .nil
  | unfinished => exact .cons trivial (.cons nofun .nil)
  | parsed _ _ ih | unexpanded _ ih => exact .cons trivial (ih trivial)
  | blank _ _ ih => exact .cons trivial (ih trivial)
  | space _ ih | verbatim _ ih | stopped _ _ ih | textFailed _ _ ih => exact ih trivial
  | literal _ ih | parameter _ _ ih | captured _ ih => exact ih trivial
  | next _ _ ih ih' | text _ _ _ ih ih' => exact .append (ih trivial) (ih' trivial)
  | reported _ _ _ _ ih ih' => exact .append (ih trivial) (.cons trivial (ih' trivial))
  | unreported _ _ _ ih => exact .append (ih trivial) (.cons nofun .nil)
  | @called st s τ a s' path args τ' o s'' h ha _ ih ih' =>
    have hbefore : engine.Coherent (.now s (.statement st) :: τ) := .cons trivial (ih trivial)
    refine List.forall_mem_append.2 ⟨fun m hm => ?_,fun m hm => ?_⟩
    · exact (hbefore m hm).mono (List.subset_append_left _ _)
    · obtain rfl | hm := ih' trivial m hm
      · exact ⟨_,_,_,_,List.mem_cons_self,h,ha⟩
      · exact hm.mono (List.subset_append_right _ _)
  | parameterFailed _ he => exact .cons (fun _ _ _ hf => nomatch he.symm.trans hf) .nil
  | refused => exact .cons nofun .nil
  | replaced _ _ ih ih' => exact .append (.inside _ (ih trivial)) (ih' trivial)
  | unreplaced _ ih => exact .inside _ (ih trivial)
  | expanded _ _ ih => exact .inside _ (ih trivial)
  | outright => exact List.forall_mem_cons.2 ⟨.inl rfl,List.forall_mem_nil _⟩
  | outrightFailed h =>
    refine List.forall_mem_cons.2 ⟨.inl rfl,List.forall_mem_singleton.2 (.inr ?_)⟩
    exact h.error_ne_execution
  | aliased _ _ ih =>
    refine List.forall_mem_cons.2 ⟨.inl rfl,fun m hm => .inr ?_⟩
    exact (ih trivial m hm).mono (List.subset_cons_self _ _)
  | @ran path args s p r body τ result s' hr hb h ih =>
    have hprogram := Coherent.inside (.command path args) (ih (hengine _ _ _ _ hb _))
    refine List.forall_mem_append.2 ⟨List.forall_mem_cons.2 ⟨.inl rfl,fun m hm => .inr ?_⟩,?_⟩
    · exact (hprogram m hm).mono fun _ hm' =>
        List.mem_append_left _ (List.mem_cons_of_mem _ hm')
    · refine List.forall_mem_singleton.2 (.inr ?_)
      exact ⟨_,_,_,_,_,List.mem_cons_self,hr,rfl,hb,h⟩
  | @ranCut path args s p r body τ x s' _ hb _ ih =>
    have hprogram := Coherent.inside (.command path args) (ih (hengine _ _ _ _ hb _))
    refine List.forall_mem_cons.2 ⟨.inl rfl,fun m hm => .inr ?_⟩
    exact (hprogram m hm).mono (List.subset_cons_self _ _)
  | answered hd ha _ ih => exact .cons trivial (ih (ht.2 _))
  | nested hr | nestedCut hr => cases hr <;> exact ht.1.elim

/-- Parts call nothing themselves; all but their errors lies inside of substitutions. -/
theorem Runs.parts_raised {rest : List Word.Part} {x : Except Halt (List String)}
    (h : engine.Runs (.parts rest) s τ x s') :
    ∀ m ∈ τ, m.around = [] → ∃ e, m.what = .raised e := by
  induction rest generalizing s τ x with
  | nil => cases h <;> simp
  | cons part rest ih =>
    cases h with
    | cut => simp
    | literal h | parameter _ h => exact ih h
    | parameterFailed => simp [Moment.now]
    | replaced _ hr =>
      refine List.forall_mem_append.2 ⟨fun m hm hnone => ?_,ih hr⟩
      obtain ⟨_,_,rfl⟩ := List.mem_map.1 hm
      cases hnone
    | unreplaced =>
      intro m hm hnone
      obtain ⟨_,_,rfl⟩ := List.mem_map.1 hm
      cases hnone

theorem Runs.fragments_raised {a : Reentry.Assembly} {rest : List Fragment}
    {x : Except Halt Reentry.Assembly} (h : engine.Runs (.fragments a rest) s τ x s') :
    ∀ m ∈ τ, m.around = [] → ∃ e, m.what = .raised e := by
  induction rest generalizing a s τ with
  | nil => cases h <;> simp
  | cons f rest ih =>
    cases h with
    | cut => simp
    | space h | verbatim h => exact ih h
    | text _ h hr => exact List.forall_mem_append.2 ⟨h.parts_raised,ih hr⟩
    | textFailed _ h => exact h.parts_raised

theorem Runs.expansion_head {name l : String} {x : Except Halt (Option Value)}
    (h : engine.Runs (.expansion name l) s τ x s') :
    ∀ m ∈ τ, ∀ l', m.around.head? ≠ some (.substitution l') := by
  cases h <;> simp [Moment.now,Moment.inside]

theorem Runs.call_head {path : String} {args : List String} {x : Except Halt Value}
    (h : engine.Runs (.call path args) s τ x s') :
    ∀ m ∈ τ, ∀ l, m.around.head? ≠ some (.substitution l) := by
  cases h with
  | aliased _ he =>
    exact List.forall_mem_cons.2 ⟨by simp [Moment.now],he.expansion_head⟩
  | _ => simp [Moment.now,Moment.inside,or_imp,forall_and]

/-- What a line that takes this course comes to, as far as it is due to what goes wrong in it. -/
structure Faithful (engine : Engine κ) (s : Shell κ) (τ : List (Moment κ))
    (x : Except Halt (Option Value)) : Prop where
  /-- Nothing happens after `exit`, and the line ends with the request, whatever errors do. -/
  exits : ∀ m ∈ τ, ∀ action path args result, m.what = .ended action path args result →
    engine.command action = Builtin.exit.command → ∃ verbatim body code,
      (Builtin.exit.command : Command κ).Starts verbatim args body ∧
      body ⟨path,args⟩ = .fail (.exit code) ∧ result = .error (.exit code) ∧
      τ.getLast? = some m ∧ x = .error (.failed (.exit code))
  /-- Where errors stop lines, nothing happens after one, and the line ends with it: unchanged,
  unless a substitution is around. -/
  stops : s.session.config.onError = .stop → ∀ m ∈ τ, ∀ e, m.what.error? = some e →
    τ.getLast? = some m ∧ x = .error (.failed (m.carried e)) ∧
      ((∀ l, .substitution l ∉ m.around) → m.carried e = e)
  /-- If the line fails, it does so with the error of the last moment. -/
  caused : ∀ e, x = .error (.failed e) → ∃ m e', τ.getLast? = some m ∧ m.what.error? = some e' ∧
    e = m.carried e'
  /-- The error that a failing command raises names that command. -/
  fails : ∀ m ∈ τ, ∀ action path args f, m.what = .ended action path args (.error f) →
    (∀ e, f.origin ≠ .shell e) → (∀ code, f.origin ≠ .exit code) →
      m.what.error? = some (.execution path args f)
  /-- A line that ends with the failure of a command ends with that of the command that came to its
  end last. -/
  executions : ∀ path args f, x = .error (.failed (.execution path args f)) →
    ∃ m action path' args' f', τ.getLast? = some m ∧ (∀ l, .substitution l ∉ m.around) ∧
      m.what = .ended action path' args' (.error f') ∧
      ((path',args',f') = (path,args,f) ∨ f'.origin = .shell (.execution path args f))
  /-- Commands are called by the words of a statement, the first of which stands for the command
  and for no alias. -/
  names : ∀ m ∈ τ, ∀ action path args result, m.what = .ended action path args result →
    ∃ s₁ p r, engine.Worded τ m.around s₁ path args ∧ s₁.resolve path = .ok (.command p r) ∧
      r.descriptor.action = action

theorem Explained.exit_ended {m : Moment κ} (hm : engine.Explained τ m) {action : κ}
    {path : String} {args : List String} {result : Except Failure Value}
    (hw : m.what = .ended action path args result)
    (ha : engine.command action = Builtin.exit.command) : ∃ verbatim body code,
      (Builtin.exit.command : Command κ).Starts verbatim args body ∧
      body ⟨path,args⟩ = .fail (.exit code) ∧ result = .error (.exit code) := by
  simp only [Explained,hw] at hm
  obtain ⟨s₁,p,r,body,τ₀,-,-,-,hb,hp⟩ := hm
  rw [ha] at hb
  obtain ⟨bound,hbody⟩ := Builtin.body_of_starts hb ⟨path,args⟩
  obtain ⟨code,hcode⟩ := @Builtin.exitBody_eq_fail κ bound
  have hfail : body ⟨path,args⟩ = .fail (.exit code) := hbody.trans hcode
  rw [hfail] at hp
  generalize s₁.synced = s₀,m.shell = s₂ at hp
  cases hp
  exact ⟨_,body,code,hb,hfail,rfl⟩

/-- The only error of a moment that is the failure of a command is that of one that ends there. -/
theorem Explained.ended_of_execution {m : Moment κ} (hm : engine.Explained τ m) {path : String}
    {args : List String} {f : Failure} (he : m.what.error? = some (.execution path args f)) :
    ∃ action path' args' f', m.what = .ended action path' args' (.error f') ∧
      ((path',args',f') = (path,args,f) ∨ f'.origin = .shell (.execution path args f)) := by
  cases hw : m.what with
  | ended action path' args' result =>
    cases result with
    | ok v => simp [hw,Happening.error?] at he
    | error f' =>
      rw [hw] at he
      exact ⟨action,path',args',f',rfl,Failure.eq_of_raise_eq (Option.some.inj he)⟩
  | raised e' =>
    simp only [Explained,hw] at hm
    rw [hw] at he
    exact absurd (Option.some.inj he) (hm _ _ _)
  | _ => simp [hw,Happening.error?] at he

/-- An error that does not let the line go on is the last thing that happens. -/
theorem Runs.ends_of_error (hengine : ∀ a, (engine.command a).Direct) {l : String}
    {x : Except Halt (Option Value)} (h : engine.Runs (.line l) s τ x s') {m : Moment κ}
    (hm : m ∈ τ) {e : ShellError} (he : m.what.error? = some e)
    (hc : ¬(Halt.failed e).Passes s.session.config) :
    τ.getLast? = some m ∧ x = .error (.failed (m.carried e)) := by
  obtain ⟨hm',hx⟩ := (h.traced hengine trivial).last_of_error hm he hc
  cases x with
  | ok v => cases hx
  | error y =>
    cases hx
    exact ⟨hm',rfl⟩

theorem Runs.faithful (hengine : ∀ a, (engine.command a).Direct) {l : String}
    {x : Except Halt (Option Value)} (h : engine.Runs (.line l) s τ x s') :
    engine.Faithful s τ x := by
  have htraced := h.traced hengine trivial
  have hcoherent : engine.Coherent τ := h.explains hengine trivial
  constructor
  case exits =>
    intro m hm action path args result hw ha
    obtain ⟨verbatim,body,code,hb,hbody,rfl⟩ := (hcoherent m hm).exit_ended hw ha
    have hcarried : m.carried (.exit code) = .exit code :=
      ShellError.eq_exit_of_code (m.exitCode?_carried _)
    have he : m.what.error? = some (.exit code) := by rw [hw]; rfl
    obtain ⟨hm',hx⟩ := h.ends_of_error hengine hm he nofun
    exact ⟨verbatim,body,code,hb,hbody,rfl,hm',hcarried ▸ hx⟩
  case stops =>
    intro hstop m hm e he
    obtain ⟨hm',hx⟩ := h.ends_of_error hengine hm he fun hc => nomatch hstop.symm.trans hc.1
    exact ⟨hm',hx,m.carried_of_no_substitution⟩
  case caused =>
    rintro e rfl
    exact htraced.exists_last
  case fails =>
    intro m _ action path args f hw hs hx
    rw [hw]
    exact congrArg some (Failure.raise_of_own hs hx)
  case executions =>
    rintro path args f rfl
    obtain ⟨m,e,hm,he,hcarried⟩ := htraced.exists_last
    have hnone : ∀ l, .substitution l ∉ m.around := fun l hl =>
      m.carried_ne_execution hl path args f hcarried.symm
    rw [m.carried_of_no_substitution hnone] at hcarried
    obtain ⟨action,path',args',f',hw,hf⟩ :=
      (hcoherent m (List.mem_of_getLast? hm)).ended_of_execution (hcarried ▸ he)
    exact ⟨m,action,path',args',f',hm,hnone,hw,hf⟩
  case names =>
    intro m hm action path args result hw
    have hexplained := hcoherent m hm
    simp only [Explained,hw] at hexplained
    obtain ⟨s₁,p,r,-,-,hcall,hr,ha,-⟩ := hexplained
    exact ⟨s₁,p,r,hcoherent _ hcall,hr,ha⟩

/-- An error that a substitution of the statement comes to is that of the evaluation, and what the
statement would have called is not called. -/
theorem Runs.unsubstituted (hengine : ∀ a, (engine.command a).Direct) {st : Statement}
    {x : Except Halt (Option Value)} (h : engine.Runs (.statement st) s τ x s')
    (hstop : s.session.config.onError = .stop) {m : Moment κ} (hm : m ∈ τ) {e : ShellError}
    (he : m.what.error? = some e) {l : String} {rest : List Frame}
    (hl : m.around = .substitution l :: rest) (hexit : e.exitCode? = none) :
    x = .error (.failed (.evaluation ("$(" ++ l ++ ")") (.shell (rest.foldr Frame.carry e)))) ∧
      ∀ m' ∈ τ, m'.around = [] → ∀ path args, m'.what ≠ .call path args := by
  have hcarried : m.carried e =
      .evaluation ("$(" ++ l ++ ")") (.shell (rest.foldr Frame.carry e)) := by
    have hinner := Moment.exitCode?_carried ⟨rest,m.shell,m.what⟩ e
    rw [hexit] at hinner
    unfold Moment.carried at hinner ⊢
    rw [hl,List.foldr_cons]
    generalize rest.foldr Frame.carry e = e' at hinner ⊢
    cases e' with
    | exit code => cases hinner
    | _ => rfl
  obtain ⟨-,hx⟩ := (h.traced hengine trivial).last_of_error hm he
    fun hc => nomatch hstop.symm.trans hc.1
  have hhead : m.around.head? = some (.substitution l) := by rw [hl]; rfl
  cases h with
  | cut => cases hm
  | blank hf _ => cases hx
  | unexpanded hf =>
    cases hx
    refine ⟨by rw [hcarried],List.forall_mem_cons.2 ⟨fun _ _ _ => nofun,?_⟩⟩
    intro m' hm' hnone path args hcall
    obtain ⟨e',he'⟩ := hf.fragments_raised m' hm' hnone
    cases he'.symm.trans hcall
  | called hf _ hc =>
    obtain hm | hm := List.mem_append.1 hm
    · -- all words were evaluated, so nothing went wrong before the call
      obtain rfl | hm := List.mem_cons.1 hm
      · cases he
      · have hpasses := (hf.traced hengine trivial).quiet_of_done m hm e he
        cases hstop.symm.trans hpasses.1
    · exact absurd hhead (hc.call_head m hm l)

/-- Where all commands are built-in ones or run nothing else, `exit` and errors keep what they are
through aliases and substitutions, however they are nested: the runs of a line are its courses that
come to their end, and every course is faithful to what goes wrong in it. An error in a
substitution fails the statement around it as an evaluation with that error as its source, and the
command of the statement is not called. -/
theorem errors_keep_identity (hengine : engine.Plain) :
    (∀ l s o s', (∃ n, ((engine.reentry n).execute l).run s = some (o,s')) ↔
      ∃ τ, engine.Runs (.line l) s τ (o.mapError .failed) s') ∧
    (∀ l s τ x s', engine.Runs (.line l) s τ x s' → engine.Faithful s τ x) ∧
    ∀ st s τ x s', engine.Runs (.statement st) s τ x s' → s.session.config.onError = .stop →
      ∀ m ∈ τ, ∀ e, m.what.error? = some e → e.exitCode? = none →
        ∀ l rest, m.around = .substitution l :: rest →
          x = .error (.failed
            (.evaluation ("$(" ++ l ++ ")") (.shell (rest.foldr Frame.carry e)))) ∧
          ∀ m' ∈ τ, m'.around = [] → ∀ path args, m'.what ≠ .call path args := by
  refine ⟨fun l s o s' => exists_execute_iff_runs,fun l s τ x s' h => ?_,?_⟩
  · exact h.faithful hengine.direct
  · intro st s τ x s' h hstop m hm e he hexit l rest hl
    exact h.unsubstituted hengine.direct hstop hm he hl hexit

def withFailing : Engine (Option Builtin) where
  command
    | some b => b.command
    | none => .ofBody fun _ => .fail (.message "disk full")
  launch _ _ _ _ := .error .notFound

theorem plain_withFailing : withFailing.Plain := by
  intro action
  cases action with
  | some b => exact .inl ⟨b,rfl⟩
  | none =>
    refine .inr fun verbatim args body h i => ?_
    cases h with
    | verbatim => trivial
    | bound _ hb =>
      cases hb
      trivial

def nesting (onError : ErrorPolicy) (inner : String) : Shell (Option Builtin) :=
  let kernel := match (Kernel.withBuiltins some).register (.named "/fail" none) with
    | .ok (_,k) => k
    | .error _ => default
  let session := Session.opened (.opened [])
  { kernel := kernel
    disk := .empty
    session := { session with
      aliases := (session.aliases.define "inner" inner).define "outer" "echo $(inner)"
      config := ⟨16,onError,""⟩ } }

def raisedBy (r : Except ShellError (Option Value) × Shell κ) : Option ShellError :=
  match r.1 with
  | .ok _ => none
  | .error e => some e

/-- A request to exit ends the line as it is, the failure of a command as an evaluation. -/
theorem errors_keep_identity_nesting :
    (∃ s' τ m, ((withFailing.reentry 20).execute "outer; pwd").run (nesting .proceed "exit 7") =
        some (.error (.exit 7),s') ∧
      withFailing.Runs (.line "outer; pwd") (nesting .proceed "exit 7") τ
        (.error (.failed (.exit 7))) s' ∧
      τ.getLast? = some m ∧ m.what.error? = some (.exit 7)) ∧
    ∃ e s' τ m, ((withFailing.reentry 20).execute "outer; pwd").run (nesting .stop "fail now") =
        some (.error e,s') ∧
      e.message = "cannot evaluate `$(inner)`: fail: disk full (args: [\"now\"])" ∧
      withFailing.Runs (.line "outer; pwd") (nesting .stop "fail now") τ (.error (.failed e)) s' ∧
      τ.getLast? = some m ∧ ∃ e', m.what.error? = some e' ∧ e = m.carried e' := by
  obtain ⟨hruns,hfaithful,-⟩ := errors_keep_identity plain_withFailing
  constructor
  · have hend :
        (((withFailing.reentry 20).execute "outer; pwd").run (nesting .proceed "exit 7")).map
          (fun r => (raisedBy r).bind ShellError.exitCode?) = some (some 7) := by decide +kernel
    obtain ⟨⟨o,s'⟩,hrun,ho⟩ := Option.map_eq_some_iff.1 hend
    cases o with
    | ok v => cases ho
    | error e =>
      obtain rfl := ShellError.eq_exit_of_code ho
      obtain ⟨τ,hτ⟩ := (hruns _ _ _ _).1 ⟨20,hrun⟩
      obtain ⟨m,e',hm,he,hcarried⟩ := (hfaithful _ _ _ _ _ hτ).caused _ rfl
      have hcode := (congrArg ShellError.exitCode? hcarried).trans (m.exitCode?_carried e')
      obtain rfl := ShellError.eq_exit_of_code hcode.symm
      exact ⟨s',τ,m,hrun,hτ,hm,he⟩
  · have hend :
        (((withFailing.reentry 20).execute "outer; pwd").run (nesting .stop "fail now")).map
          (fun r => (raisedBy r).map ShellError.message) =
          some (some "cannot evaluate `$(inner)`: fail: disk full (args: [\"now\"])") := by
      decide +kernel
    obtain ⟨⟨o,s'⟩,hrun,ho⟩ := Option.map_eq_some_iff.1 hend
    cases o with
    | ok v => cases ho
    | error e =>
      obtain ⟨τ,hτ⟩ := (hruns _ _ _ _).1 ⟨20,hrun⟩
      obtain ⟨m,e',hm,he,hcarried⟩ := (hfaithful _ _ _ _ _ hτ).caused _ rfl
      exact ⟨e,s',τ,m,hrun,Option.some.inj ho,hτ,hm,e',he,hcarried⟩

end Engine
end CommandShell
