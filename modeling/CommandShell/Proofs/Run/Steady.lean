import CommandShell.Proofs.Registry.Still
import CommandShell.Proofs.Run.Causes

/-! What commands leave alone.
Whatever the answers to the requests of a manner do not change, no course changes in which all
commands that are called keep to that manner. The built-in commands do not change what is
registered, and no file. -/
namespace CommandShell

variable {κ : Type}

def Command.Keeps (m : Manner κ) (c : Command κ) : Prop :=
  ∀ verbatim args body, c.Starts verbatim args body → ∀ i, (body i).Keeps m

theorem Builtin.keeps_command {m : Manner κ} (hm : m.Suits) (b : Builtin) :
    (b.command : Command κ).Keeps m :=
  fun _ _ _ h i => keeps_starts hm h i

/-- What is called at this moment is no command, or one that keeps to the manner. -/
def Moment.Keeps (engine : Engine κ) (m : Manner κ) (x : Moment κ) : Prop :=
  ∀ path args p r, x.what = .call path args → x.shell.resolve path = .ok (.command p r) →
    (engine.command r.descriptor.action).Keeps m

theorem Moment.keeps_of_inside {engine : Engine κ} {m : Manner κ} {P : Shell κ → Prop} {f : Frame}
    {τ : List (Moment κ)} (h : ∀ y ∈ τ.map (Moment.inside f), P y.shell → y.Keeps engine m) :
    ∀ y ∈ τ, P y.shell → y.Keeps engine m :=
  fun y hy => h (y.inside f) (List.mem_map_of_mem hy)

def Task.Keeps (m : Manner κ) : Task κ → Prop
  | program p => p.Keeps m
  | _ => True

theorem Task.Direct.keeps {t : Task κ} (h : t.Direct) : t.Keeps Program.direct := by
  cases t with
  | program p => exact Program.Direct.keeps h
  | _ => trivial

def Shell.rerouted (s : Shell κ) (console : Console) (depth : Nat) : Shell κ :=
  s.updated fun t => { t with console := console, aliasDepth := depth }

namespace Engine

variable {engine : Engine κ} {m : Manner κ} {P : Shell κ → Prop} {s s' : Shell κ}

/-- The property does not depend on the streams, and answers in this manner do not touch it. -/
structure Preserves (engine : Engine κ) (m : Manner κ) (P : Shell κ → Prop) : Prop where
  direct : ∀ {r}, m.asks r → r.Direct
  answer : ∀ {r} {s s' : Shell κ} {a}, m.asks r → P s →
    engine.answer (engine.reentry 0) r s = some (a,s') → m.hears r a ∧ P s'
  synced : ∀ {s : Shell κ}, P s → P s.synced
  rerouted : ∀ {s : Shell κ} console depth, P s → P (s.rerouted console depth)

theorem Preserves.withConsole (hP : engine.Preserves m P) (c : Console) (hs : P s) :
    P (s.withConsole c) := hP.rerouted c s.session.aliasDepth hs

theorem Preserves.outright (hP : engine.Preserves m P) {path : String} {args : List String}
    {o : Except ShellError Value} (h : engine.Outright path args s o s') (hs : P s) : P s' := by
  cases h with
  | helped => exact hP.withConsole _ (hP.synced hs)
  | _ => exact hP.synced hs

/-- A course preserves the property if the commands that are called keep to the manner, as far as
they are called where the property holds. -/
theorem Preserves.runs (hP : engine.Preserves m P) {t : Task κ} {τ : List (Moment κ)}
    {x : Except Halt t.Yield} (h : engine.Runs t s τ x s')
    (hτ : ∀ y ∈ τ, P y.shell → y.Keeps engine m) (ht : t.Keeps m) (hs : P s) : P s' := by
  induction h with
  | cut | unfinished | done | assembled | split | parameterFailed | refused | finished | failed =>
    exact hs
  | parsed _ _ ih | unexpanded _ ih | blank _ _ ih =>
    exact ih (List.forall_mem_cons.1 hτ).2 trivial hs
  | space _ ih | verbatim _ ih | textFailed _ _ ih | literal _ ih | parameter _ _ ih
  | stopped _ _ ih => exact ih hτ trivial hs
  | next _ _ ih ih' | text _ _ _ ih ih' =>
    obtain ⟨h₁,h₂⟩ := List.forall_mem_append.1 hτ
    exact ih' h₂ trivial (ih h₁ trivial hs)
  | reported _ _ _ _ ih ih' =>
    obtain ⟨h₁,h₂⟩ := List.forall_mem_append.1 hτ
    exact ih' (List.forall_mem_cons.1 h₂).2 trivial (hP.withConsole _ (ih h₁ trivial hs))
  | unreported _ _ _ ih => exact ih (List.forall_mem_append.1 hτ).1 trivial hs
  | called _ _ _ ih ih' =>
    obtain ⟨h₁,h₂⟩ := List.forall_mem_append.1 hτ
    exact ih' h₂ trivial (ih (List.forall_mem_cons.1 h₁).2 trivial hs)
  | replaced _ _ ih ih' =>
    obtain ⟨h₁,h₂⟩ := List.forall_mem_append.1 hτ
    exact ih' h₂ trivial (ih (Moment.keeps_of_inside h₁) trivial hs)
  | unreplaced _ ih => exact ih (Moment.keeps_of_inside hτ) trivial hs
  | @captured l s τ o s' _ ih =>
    exact hP.rerouted s'.session.console.release.2 s'.session.aliasDepth
      (ih hτ trivial (hP.rerouted s.session.console.capture s.session.aliasDepth hs))
  | outright h => exact hP.outright h hs
  | outrightFailed h => exact hP.outright h hs
  | aliased _ _ ih => exact ih (List.forall_mem_cons.1 hτ).2 trivial (hP.synced hs)
  | ran hr hb _ ih =>
    obtain ⟨h₁,-⟩ := List.forall_mem_append.1 hτ
    obtain ⟨hnow,h₁⟩ := List.forall_mem_cons.1 h₁
    exact ih (Moment.keeps_of_inside h₁) (hnow hs _ _ _ _ rfl hr _ _ _ hb _) (hP.synced hs)
  | ranCut hr hb _ ih =>
    obtain ⟨hnow,h₁⟩ := List.forall_mem_cons.1 hτ
    exact ih (Moment.keeps_of_inside h₁) (hnow hs _ _ _ _ rfl hr _ _ _ hb _) (hP.synced hs)
  | @expanded name l s τ o s' _ _ ih =>
    exact hP.rerouted s'.session.console (s'.session.aliasDepth - 1)
      (ih (Moment.keeps_of_inside hτ) trivial
        (hP.rerouted s.session.console (s.session.aliasDepth + 1) hs))
  | answered _ ha _ ih =>
    obtain ⟨hheard,hs'⟩ := hP.answer ht.1 hs ha
    exact ih (List.forall_mem_cons.1 hτ).2 (ht.2 _ hheard) hs'
  | nested hr | nestedCut hr => cases hr <;> exact (hP.direct ht.1).elim

end Engine

/-- The session answers the request without running anything, and changes nothing but itself. -/
def Request.Mild (r : Request κ) : Prop := r.Modest ∨ ∃ t, r = .setAliases t

namespace Program

def mild : Manner κ := ⟨Request.Mild,fun _ _ => True,fun _ => True⟩

theorem suits_mild : (mild : Manner κ).Suits :=
  ⟨fun _ hr => .inl hr,fun _ _ _ => .inr ⟨_,rfl⟩,fun _ _ => .inr ⟨_,rfl⟩,fun _ _ => trivial,
    fun _ _ _ => trivial⟩

end Program

theorem Request.Mild.direct {r : Request κ} (h : r.Mild) : r.Direct := by
  rcases h with h | ⟨t,rfl⟩
  · cases r <;> trivial
  · trivial

theorem Kernel.withBuiltins_eq_run (action : Builtin → κ) : withBuiltins action =
    empty.run (Builtin.all.map fun b => .register (b.descriptor action)) := by
  rw [run,List.foldl_map]
  rfl

namespace Engine

variable {engine : Engine κ} {s s' : Shell κ}

theorem kernel_answer {inner : Reentry κ} {r : Request κ} (hr : r.Mild) {a : r.Answer}
    (h : engine.answer inner r s = some (a,s')) :
    (s'.kernel = s.kernel ∨ s'.kernel = s.kernel.synced) ∧ s'.disk = s.disk := by
  rcases hr with hr | ⟨t,rfl⟩
  · cases r with
    | write channel bytes =>
      simp only [answer,Act.write] at h
      split at h <;> obtain ⟨-,rfl⟩ := Prod.mk.inj (Option.some.inj h) <;> exact ⟨.inl rfl,rfl⟩
    | environment | setEnvironment | aliases | commands =>
      obtain ⟨-,rfl⟩ := Prod.mk.inj (Option.some.inj h)
      exact ⟨.inl rfl,rfl⟩
    | resolve | tree =>
      obtain ⟨-,rfl⟩ := Prod.mk.inj (Option.some.inj h)
      exact ⟨.inr rfl,rfl⟩
    | _ => exact hr.elim
  · obtain ⟨-,rfl⟩ := Prod.mk.inj (Option.some.inj h)
    exact ⟨.inl rfl,rfl⟩

theorem stands_answer {inner : Reentry κ} {r : Request κ} (hr : r.Mild) {a : r.Answer}
    (h : engine.answer inner r s = some (a,s')) {k : Kernel κ} (hs : k.Stands s.kernel) :
    k.Stands s'.kernel := by
  rcases (kernel_answer hr h).1 with he | he
  · rwa [he]
  · rw [he]
    exact hs.synced

end Engine
end CommandShell
