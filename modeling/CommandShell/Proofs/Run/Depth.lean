import CommandShell.Action
import CommandShell.Proofs.Run.Reached

/-! How many aliases are being expanded inside one another.
Every task gives the count back as it found it, whatever it comes to, and nowhere in its course is
the count above the limit of the session. -/
namespace CommandShell

variable {κ : Type}

namespace Shell

variable {s s' s'' : Shell κ}

/-- The settings and the count of aliases being expanded are the same in both. -/
structure Level (s s' : Shell κ) : Prop where
  config : s'.session.config = s.session.config
  depth : s'.session.aliasDepth = s.session.aliasDepth

theorem Level.refl (s : Shell κ) : s.Level s := ⟨rfl,rfl⟩

theorem Level.trans (h : s.Level s') (h' : s'.Level s'') : s.Level s'' :=
  ⟨h'.config.trans h.config,h'.depth.trans h.depth⟩

theorem level_withConsole (s : Shell κ) (c : Console) : s.Level (s.withConsole c) := ⟨rfl,rfl⟩

theorem level_synced (s : Shell κ) : s.Level s.synced := ⟨rfl,rfl⟩

theorem Level.release (h : s.capture.Level s') : s.Level s'.release := ⟨h.config,h.depth⟩

theorem Level.shallower (h : s.deeper.Level s') : s.Level s'.shallower := by
  refine ⟨h.config,?_⟩
  change s'.session.aliasDepth - 1 = _
  rw [h.depth]
  rfl

def attuned (s : Shell κ) (config : Config → Config) (depth : Nat → Nat) : Shell κ :=
  s.updated fun t => { t with config := config t.config, aliasDepth := depth t.aliasDepth }

def Within (s : Shell κ) : Prop := s.session.aliasDepth ≤ s.session.config.maxAliasDepth

theorem Level.within (h : s.Level s') (hs : s.Within) : s'.Within := by
  rw [Within,h.config,h.depth]
  exact hs

def Admits (s : Shell κ) (m : Moment κ) : Prop :=
  m.shell.session.aliasDepth ≤ s.session.config.maxAliasDepth

theorem Level.admits (h : s.Level s') {m : Moment κ} (hm : s'.Admits m) : s.Admits m := by
  rw [Admits,← h.config]
  exact hm

theorem Within.admits_now (h : s.Within) (what : Happening κ) : s.Admits (.now s what) := h

theorem Within.deeper (h : s.session.aliasDepth < s.session.config.maxAliasDepth) :
    s.deeper.Within := Nat.succ_le_of_lt h

theorem admits_map_inside {τ : List (Moment κ)} (f : Frame) (h : ∀ m ∈ τ, s.Admits m) :
    ∀ m ∈ τ.map (Moment.inside f), s.Admits m := by
  intro m hm
  obtain ⟨m',hm',rfl⟩ := List.mem_map.1 hm
  exact h m' hm'

end Shell

namespace Engine

variable {engine : Engine κ} {t : Task κ} {s s' : Shell κ} {τ : List (Moment κ)}
  {x : Except Halt t.Yield}

open Shell

theorem level_answer {inner : Reentry κ} {r : Request κ} (hr : r.Direct) {a : r.Answer}
    (h : engine.answer inner r s = some (a,s')) : s.Level s' := by
  cases r with
  | execute l => exact hr.elim
  | run path args => exact hr.elim
  | executeAlias name l => exact hr.elim
  | write channel bytes =>
    simp only [answer,Act.write] at h
    split at h <;> obtain ⟨-,rfl⟩ := Prod.mk.inj (Option.some.inj h)
    · exact level_withConsole s _
    · exact .refl s
  | register d =>
    simp only [answer,Act.register] at h
    split at h <;> obtain ⟨-,rfl⟩ := Prod.mk.inj (Option.some.inj h) <;> exact ⟨rfl,rfl⟩
  | unregister name =>
    simp only [answer,Act.unregister] at h
    split at h <;> obtain ⟨-,rfl⟩ := Prod.mk.inj (Option.some.inj h) <;> exact ⟨rfl,rfl⟩
  | launch file args bindings =>
    simp only [answer,Act.launch] at h
    split at h <;> obtain ⟨-,rfl⟩ := Prod.mk.inj (Option.some.inj h) <;> exact ⟨rfl,rfl⟩
  | _ =>
    obtain ⟨-,rfl⟩ := Prod.mk.inj (Option.some.inj h)
    exact ⟨rfl,rfl⟩

/-- What the session answers without running anything depends neither on its settings nor on the
count. -/
theorem answer_attuned (inner : Reentry κ) {r : Request κ} (hr : r.Direct)
    (config : Config → Config) (depth : Nat → Nat) (s : Shell κ) :
    engine.answer inner r (s.attuned config depth) =
      (engine.answer inner r s).map fun p => (p.1,p.2.attuned config depth) := by
  have hconsole : (s.attuned config depth).session.console = s.session.console := rfl
  have hkernel : (s.attuned config depth).kernel = s.kernel := rfl
  have hdisk : (s.attuned config depth).disk = s.disk := rfl
  cases r with
  | execute l => exact hr.elim
  | run path args => exact hr.elim
  | executeAlias name l => exact hr.elim
  | write channel bytes =>
    simp only [answer,Act.write,hconsole]
    cases s.session.console.write channel bytes <;> rfl
  | register d =>
    simp only [answer,Act.register,hkernel]
    cases s.kernel.register d <;> rfl
  | unregister name =>
    simp only [answer,Act.unregister,hkernel]
    cases s.kernel.unregister name <;> rfl
  | launch file args bindings =>
    simp only [answer,Act.launch,hdisk]
    cases engine.launch file args bindings s.disk <;> rfl
  | _ => rfl

theorem Outright.level {path : String} {args : List String} {o : Except ShellError Value}
    (h : engine.Outright path args s o s') : s.Level s' := by
  cases h with
  | helped => exact (level_synced s).trans (level_withConsole _ _)
  | _ => exact level_synced s

theorem Runs.level (h : engine.Runs t s τ x s') : s.Level s' := by
  induction h with
  | cut | unfinished | done | assembled | split | parameterFailed | refused | finished | failed =>
    exact .refl _
  | parsed _ _ ih | unexpanded _ ih | blank _ _ ih | space _ ih | verbatim _ ih | textFailed _ _ ih
  | literal _ ih | parameter _ _ ih | unreplaced _ ih | stopped _ _ ih | unreported _ _ _ ih
  | nestedCut _ _ ih => exact ih
  | next _ _ ih ih' | called _ _ _ ih ih' | text _ _ _ ih ih' | replaced _ _ ih ih'
  | nested _ _ _ ih ih' => exact ih.trans ih'
  | reported _ _ _ _ ih ih' => exact (ih.trans (level_withConsole _ _)).trans ih'
  | captured _ ih => exact ih.release
  | outright h | outrightFailed h => exact h.level
  | aliased _ _ ih | ran _ _ _ ih | ranCut _ _ _ ih => exact (level_synced _).trans ih
  | expanded _ _ ih => exact ih.shallower
  | answered hd ha _ ih => exact (level_answer hd ha).trans ih

/-- From a shell within its limit no course ever leads above it. -/
theorem Runs.admits (h : engine.Runs t s τ x s') (hs : s.Within) : ∀ m ∈ τ, s.Admits m := by
  induction h with
  | cut | done | assembled | split | finished | failed => simp
  | unfinished => simpa using ⟨hs.admits_now _,hs.admits_now _⟩
  | parsed _ _ ih | unexpanded _ ih | blank _ _ ih =>
    exact List.forall_mem_cons.2 ⟨hs.admits_now _,ih hs⟩
  | next h _ ih ih' | text _ h _ ih ih' =>
    exact List.forall_mem_append.2 ⟨ih hs,fun m hm => h.level.admits (ih' (h.level.within hs) m hm)⟩
  | stopped _ _ ih | space _ ih | verbatim _ ih | textFailed _ _ ih | literal _ ih
  | parameter _ _ ih => exact ih hs
  | reported h _ _ _ ih ih' =>
    have hlevel := fun c => h.level.trans (level_withConsole _ c)
    refine List.forall_mem_append.2 ⟨ih hs,List.forall_mem_cons.2 ⟨?_,fun m hm => ?_⟩⟩
    · exact h.level.admits ((h.level.within hs).admits_now _)
    · exact (hlevel _).admits (ih' ((hlevel _).within hs) m hm)
  | unreported h _ _ ih =>
    refine List.forall_mem_append.2 ⟨ih hs,?_⟩
    simpa using h.level.admits ((h.level.within hs).admits_now _)
  | called h _ _ ih ih' =>
    exact List.forall_mem_append.2 ⟨List.forall_mem_cons.2 ⟨hs.admits_now _,ih hs⟩,
      fun m hm => h.level.admits (ih' (h.level.within hs) m hm)⟩
  | parameterFailed | refused => simpa using hs.admits_now _
  | replaced h _ ih ih' =>
    exact List.forall_mem_append.2 ⟨admits_map_inside _ (ih hs),
      fun m hm => h.level.admits (ih' (h.level.within hs) m hm)⟩
  | unreplaced _ ih => exact admits_map_inside _ (ih hs)
  | captured _ ih => exact ih hs
  | outright => simpa using hs.admits_now _
  | outrightFailed h =>
    simpa using ⟨hs.admits_now _,h.level.admits ((h.level.within hs).admits_now _)⟩
  | aliased _ _ ih => exact List.forall_mem_cons.2 ⟨hs.admits_now _,ih hs⟩
  | ran _ _ h ih =>
    have hlevel := (level_synced _).trans h.level
    refine List.forall_mem_append.2 ⟨List.forall_mem_cons.2 ⟨hs.admits_now _,?_⟩,?_⟩
    · exact admits_map_inside _ (ih hs)
    · simpa using hlevel.admits ((hlevel.within hs).admits_now _)
  | ranCut _ _ _ ih =>
    exact List.forall_mem_cons.2 ⟨hs.admits_now _,admits_map_inside _ (ih hs)⟩
  | expanded h _ ih => exact admits_map_inside _ (ih (.deeper h))
  | answered hd ha _ ih =>
    have hlevel := level_answer hd ha
    exact List.forall_mem_cons.2 ⟨hs.admits_now _,
      fun m hm => hlevel.admits (ih (hlevel.within hs) m hm)⟩
  | nested _ h _ ih ih' =>
    exact List.forall_mem_append.2 ⟨List.forall_mem_cons.2 ⟨hs.admits_now _,ih hs⟩,
      fun m hm => h.level.admits (ih' (h.level.within hs) m hm)⟩
  | nestedCut _ _ ih => exact List.forall_mem_cons.2 ⟨hs.admits_now _,ih hs⟩

theorem Runs.refused_only {name l : String} {x : Except Halt (Option Value)}
    (h : engine.Runs (.expansion name l) s τ x s')
    (hs : s.session.config.maxAliasDepth ≤ s.session.aliasDepth) : ∀ m ∈ τ,
      m = .now s (.raised (.aliasDepthExceeded name s.session.config.maxAliasDepth)) := by
  cases h with
  | cut => simp
  | refused => simp
  | expanded hlt _ => exact absurd hlt (Nat.not_lt.2 hs)

theorem executeAlias_of_le (inner : Reentry κ) (name l : String)
    (hs : s.session.config.maxAliasDepth ≤ s.session.aliasDepth) :
    (inner.executeAlias name l).run s =
      some (.error (.aliasDepthExceeded name s.session.config.maxAliasDepth),s) := by
  simp only [Reentry.executeAlias,ExceptT.run_mk,Act.session_bind,if_pos hs]
  rfl

/-- Whenever the run ends, as many aliases are being expanded as when it began. -/
def Balanced {α : Type} (act : Act κ α) : Prop :=
  ∀ s a s', act s = some (a,s') → s'.session.aliasDepth = s.session.aliasDepth

theorem balanced_perform (engine : Engine κ) (n : Nat) (t : Task κ) :
    Balanced (engine.perform (engine.reentry n) t) := by
  intro s o s' hrun
  obtain ⟨τ,hτ⟩ := engine.follows_perform n t s o s' hrun
  exact hτ.level.depth

theorem balanced_execute (engine : Engine κ) (n : Nat) (line : String) :
    Balanced ((engine.reentry n).execute line).run := by
  cases n with
  | zero =>
    intro s o s' hrun
    cases hrun
  | succ n => exact engine.balanced_perform n (.line line)

theorem balanced_run (engine : Engine κ) (n : Nat) (path : String) (args : List String) :
    Balanced ((engine.reentry n).run path args).run := by
  cases n with
  | zero =>
    intro s o s' hrun
    cases hrun
  | succ n => exact engine.balanced_perform n (.call path args)

/-- Whatever commands there are, running a line, a command, an alias or a substitution leaves the
count of aliases being expanded as it was, with a value, an error or a request to exit. Runs are
the courses that come to their end, and a session within its limit is within it at every moment of
every course, also of those that do not end. At the limit an expansion is refused, and nothing else
happens. -/
theorem alias_depth_balanced (engine : Engine κ) :
    (∀ n, (∀ line, Balanced ((engine.reentry n).execute line).run) ∧
      (∀ path args, Balanced ((engine.reentry n).run path args).run) ∧
      (∀ name line, Balanced ((engine.reentry n).executeAlias name line).run) ∧
      ∀ line, Balanced ((engine.reentry n).substitute line).run) ∧
    (∀ t s o s', (∃ n, engine.perform (engine.reentry n) t s = some (o,s')) ↔
      ∃ τ, engine.Runs t s τ (o.mapError .failed) s') ∧
    (∀ t s τ x s', engine.Runs t s τ x s' →
      s.session.aliasDepth ≤ s.session.config.maxAliasDepth →
      ∀ m ∈ τ, m.shell.session.aliasDepth ≤ s.session.config.maxAliasDepth) ∧
    ∀ s, s.session.config.maxAliasDepth ≤ s.session.aliasDepth → ∀ name line,
      (∀ n, ((engine.reentry n).executeAlias name line).run s =
        some (.error (.aliasDepthExceeded name s.session.config.maxAliasDepth),s)) ∧
      ∀ τ x s', engine.Runs (.expansion name line) s τ x s' → ∀ m ∈ τ,
        m = .now s (.raised (.aliasDepthExceeded name s.session.config.maxAliasDepth)) := by
  refine ⟨fun n => ⟨engine.balanced_execute n,engine.balanced_run n,?_,?_⟩,
    fun t s o s' => exists_perform_iff_runs,fun t s τ x s' h hs => h.admits hs,
    fun s hs name line => ⟨fun n => ?_,?_⟩⟩
  · exact fun name line => engine.balanced_perform n (.expansion name line)
  · exact fun line => engine.balanced_perform n (.substitution line)
  · exact executeAlias_of_le _ name line hs
  · exact fun τ x s' h => h.refused_only hs

def entangled : Shell Action :=
  let kernel := match (Kernel.withBuiltins .builtin).register
      (.named "/again" (.probe ⟨.run "loop",none⟩)) with
    | .ok (_,k) => k
    | .error _ => default
  let session := Session.opened (.opened [])
  { kernel := kernel
    disk := .empty
    session := { session with
      aliases := session.aliases.define "loop" "again"
      config := ⟨2,.stop,""⟩ } }

/-- The limit ends the run, and afterwards no alias is being expanded. -/
theorem alias_depth_balanced_entangled :
    ∃ o s' τ, (((Action.engine default).reentry 20).execute "loop").run entangled = some (o,s') ∧
      o.isOk = false ∧ entangled.session.aliasDepth = 0 ∧ s'.session.aliasDepth = 0 ∧
      (Action.engine default).Runs (.line "loop") entangled τ (o.mapError .failed) s' ∧
      ∀ m ∈ τ, m.shell.session.aliasDepth ≤ 2 := by
  have hend : (((Action.engine default).reentry 20).execute "loop" |>.run entangled).map
      (·.1.isOk) = some false := by decide +kernel
  obtain ⟨⟨o,s'⟩,hrun,ho⟩ := Option.map_eq_some_iff.1 hend
  obtain ⟨hbalanced,hruns,hadmits,-⟩ := alias_depth_balanced (Action.engine default)
  obtain ⟨τ,hτ⟩ := (hruns (.line "loop") entangled o s').1 ⟨19,hrun⟩
  exact ⟨o,s',τ,hrun,ho,rfl,(hbalanced 20).1 "loop" _ _ _ hrun,hτ,
    hadmits _ _ _ _ _ hτ (Nat.zero_le _)⟩

end Engine
end CommandShell
