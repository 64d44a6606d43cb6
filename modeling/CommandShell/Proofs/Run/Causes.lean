import CommandShell.Proofs.Run.Depth
import CommandShell.Proofs.Run.Plain

/-! Which errors come out of a line that goes on after errors.
An error that only fails a statement gets no further than its statement, neither itself nor as the
cause of the failure of a substitution. -/
namespace CommandShell

variable {κ : Type}

namespace ShellError

/-- The error, or one in the chain of its causes, is one that only fails its statement. -/
inductive Stems : ShellError → Prop
  | here {e} (h : e.isRecoverable = true) : Stems e
  | evaluation {fragment source e} (hs : source.origin = .shell e) (h : Stems e) :
      Stems (evaluation fragment source)
  | execution {path args source e} (hs : source.origin = .shell e) (h : Stems e) :
      Stems (execution path args source)

variable {e : ShellError}

theorem Stems.isRecoverable (h : e.Stems) (hv : ∀ fragment source, e ≠ .evaluation fragment source)
    (hx : ∀ path args source, e ≠ .execution path args source) : e.isRecoverable = true := by
  cases h with
  | here h => exact h
  | evaluation => exact absurd rfl (hv _ _)
  | execution => exact absurd rfl (hx _ _ _)

theorem not_stems (hr : e.isRecoverable = false)
    (hv : ∀ fragment source, e ≠ .evaluation fragment source)
    (hx : ∀ path args source, e ≠ .execution path args source) : ¬e.Stems :=
  fun h => Bool.eq_false_iff.1 hr (h.isRecoverable hv hx)

theorem not_stems_message (fragment text : String) :
    ¬(evaluation fragment (.message text)).Stems := by
  intro h
  cases h with
  | here h => cases h
  | evaluation hs => cases hs

theorem Stems.of_carry {f : Frame} (h : (f.carry e).Stems) : e.Stems := by
  cases f with
  | substitution l =>
    cases e with
    | exit code => exact h
    | _ =>
      cases h with
      | here h => cases h
      | evaluation hs h =>
        cases hs
        exact h
  | expansion name l => exact h
  | command path args => exact h

end ShellError

theorem Failure.Simple.isRecoverable {f : Failure} (hf : f.Simple) {path : String}
    {args : List String} (h : (f.raise path args).Stems) :
    (f.raise path args).isRecoverable = true := by
  unfold Failure.raise at h ⊢
  cases horigin : f.origin with
  | shell e => exact hf e horigin
  | exit code =>
    rw [horigin] at h
    exact h.isRecoverable nofun nofun
  | _ =>
    rw [horigin] at h
    cases h with
    | here h => exact h
    | execution hs _ =>
      rw [horigin] at hs
      cases hs

namespace Program

def calm : Manner κ where
  asks r := r.Direct ∧ ∀ bytes, r ≠ .write .errors bytes
  hears
    | .resolve _ => fun a : Except ShellError (Resolution κ) =>
      ∀ e, a = .error e → e.isRecoverable = true
    | _ => fun _ => True
  fails := Failure.Simple

theorem suits_calm : (calm : Manner κ).Suits := by
  refine ⟨fun r hr => ⟨?_,?_⟩,fun _ _ _ => ⟨trivial,nofun⟩,fun _ _ => ⟨trivial,nofun⟩,
    fun f hf => hf,fun name e he e' he' => ?_⟩
  · cases r <;> trivial
  · rintro bytes rfl
    exact hr
  · cases he'
    exact he e rfl

end Program

def Command.Calm (c : Command κ) : Prop :=
  ∀ verbatim args body, c.Starts verbatim args body → ∀ i, (body i).Keeps Program.calm

theorem Builtin.calm_command (b : Builtin) : (b.command : Command κ).Calm :=
  fun _ _ _ h i => keeps_starts Program.suits_calm h i

/-- All commands are built-in ones. -/
def Engine.OnlyBuiltins (engine : Engine κ) : Prop :=
  ∀ a, ∃ b : Builtin, engine.command a = b.command

theorem Engine.OnlyBuiltins.calm {engine : Engine κ} (h : engine.OnlyBuiltins) (a : κ) :
    (engine.command a).Calm := by
  obtain ⟨b,hb⟩ := h a
  exact hb ▸ b.calm_command

theorem Engine.OnlyBuiltins.direct {engine : Engine κ} (h : engine.OnlyBuiltins) (a : κ) :
    (engine.command a).Direct := by
  obtain ⟨b,hb⟩ := h a
  exact hb ▸ b.direct_command

def Task.Calm : Task κ → Prop
  | program p => p.Keeps Program.calm
  | _ => True

theorem Shell.eq_of_resolve {s : Shell κ} {path : String} {e : ShellError}
    (h : s.resolve path = .error e) : e = .commandNotFound path := by
  unfold Shell.resolve Session.resolve at h
  split at h <;> cases h
  rfl

namespace Engine

variable {engine : Engine κ} {s s' : Shell κ}

theorem hears_answer {inner : Reentry κ} {r : Request κ} {a : r.Answer}
    (h : engine.answer inner r s = some (a,s')) : Program.calm.hears r a := by
  cases r with
  | resolve name =>
    intro e he
    have hresolve : (Act.resolve name).run s = some (a,s') := h
    rw [resolve_run] at hresolve
    obtain ⟨rfl,-⟩ := Prod.mk.inj (Option.some.inj hresolve)
    rw [Shell.eq_of_resolve he]
    rfl
  | _ => trivial

/-- Statements and calls pass on errors that fail them, with no more around; what lines pass on
stems from no such error. -/
def Confined : (t : Task κ) → Except Halt t.Yield → Prop
  | .statement _,x => ∀ e, x = .error (.failed e) → e.Stems → e.isRecoverable = true
  | .call _ _,x => ∀ e, x = .error (.failed e) → e.Stems → e.isRecoverable = true
  | .program _,x =>
    (∀ f, x = .ok (.error f) → f.Simple) ∧ ∀ e, x ≠ .error (.failed e)
  | _,x => ∀ e, x = .error (.failed e) → ¬e.Stems

theorem failed_of_map {α β : Type} {f : α → β} {x : Except Halt α} {y : Halt}
    (h : x.map f = .error y) : x = .error y := by
  cases x with
  | ok v => cases h
  | error y' =>
    cases h
    rfl

theorem Outright.isRecoverable_of_stems {path : String} {args : List String} {e : ShellError}
    (h : engine.Outright path args s (.error e) s') (he : e.Stems) : e.isRecoverable = true := by
  cases h with
  | unresolved h =>
    rw [Shell.eq_of_resolve h]
    rfl
  | group | usage => rfl
  | unhelped => exact he.isRecoverable nofun nofun

theorem Runs.confined {t : Task κ} {τ : List (Moment κ)} {x : Except Halt t.Yield}
    (hengine : ∀ a, (engine.command a).Calm) (h : engine.Runs t s τ x s') (ht : t.Calm)
    (hs : s.session.config.onError = .proceed) : Confined t x := by
  induction h with
  | @cut t s =>
    cases t with
    | program p => exact ⟨nofun,nofun⟩
    | _ => nofun
  | done | assembled | split | blank => nofun
  | unfinished =>
    rintro e ⟨rfl⟩
    exact ShellError.not_stems rfl nofun nofun
  | parsed _ _ ih | space _ ih | verbatim _ ih => exact ih trivial hs
  | textFailed _ _ ih =>
    rintro e ⟨rfl⟩
    exact ih trivial hs e rfl
  | next h _ _ ih' | text _ h _ _ ih' => exact ih' trivial (h.level.config ▸ hs)
  | stopped h hx ih =>
    rintro e ⟨rfl⟩ hstems
    exact hx ⟨h.level.config ▸ hs,ih trivial hs e rfl hstems⟩
  | reported h _ _ _ _ ih' => exact ih' trivial (h.level.config ▸ hs)
  | unreported =>
    rintro e ⟨rfl⟩
    exact ShellError.not_stems rfl nofun nofun
  | unexpanded _ ih =>
    rintro e ⟨rfl⟩ hstems
    exact absurd hstems (ih trivial hs e rfl)
  | called h _ _ _ ih' =>
    exact fun e he => ih' trivial (h.level.config ▸ hs) e (failed_of_map he)
  | literal _ ih | parameter _ _ ih | captured _ ih =>
    exact fun e he => ih trivial hs e (failed_of_map he)
  | parameterFailed _ hf =>
    rintro e ⟨rfl⟩
    exact hf ▸ ShellError.not_stems_message _ _
  | replaced h _ _ ih' =>
    exact fun e he => ih' trivial (h.level.config ▸ hs) e (failed_of_map he)
  | @unreplaced l rest s τ x s' _ ih =>
    intro e he hstems
    cases x with
    | cut => cases he
    | failed e' =>
      cases he
      exact ih trivial hs e' rfl hstems.of_carry
  | outright => nofun
  | outrightFailed h =>
    rintro e ⟨rfl⟩
    exact h.isRecoverable_of_stems
  | aliased _ _ ih =>
    exact fun e he hstems => absurd hstems (ih trivial hs e (failed_of_map he))
  | @ran path args s p r body τ result s' hr hb h ih =>
    intro e he hstems
    cases result with
    | ok v => cases he
    | error f =>
      cases he
      exact (ih (hengine _ _ _ _ hb _) hs).1 f rfl |>.isRecoverable hstems
  | ranCut hr hb h ih =>
    rintro e ⟨rfl⟩
    exact absurd rfl ((ih (hengine _ _ _ _ hb _) hs).2 e)
  | refused =>
    rintro e ⟨rfl⟩ hstems
    exact absurd hstems (ShellError.not_stems rfl nofun nofun)
  | expanded _ _ ih => exact ih trivial hs
  | finished => exact ⟨nofun,nofun⟩
  | failed =>
    refine ⟨?_,nofun⟩
    rintro f ⟨rfl⟩
    exact ht
  | answered hd ha _ ih =>
    exact ih (ht.2 _ (hears_answer ha)) ((level_answer hd ha).config ▸ hs)
  | nested hr | nestedCut hr => cases hr <;> exact ht.1.1.elim

end Engine
end CommandShell
