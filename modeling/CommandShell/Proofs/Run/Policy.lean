import CommandShell.Proofs.Run.Levels
import CommandShell.Proofs.Run.Matching
import CommandShell.Proofs.Run.Reports
import CommandShell.Proofs.Run.Sequence

/-! The same line under two policies.
Where commands run nothing else, a line comes to a value under `stop` only if none of its statements
fails, at whatever depth, so that no policy is ever asked for. Under `proceed` the failures of
statements are reported where they arise, and get no further. -/
namespace CommandShell

variable {κ : Type}

namespace Shell

variable (s : Shell κ) (policy : ErrorPolicy)

def obeying : Shell κ :=
  s.updated fun t => { t with config := { t.config with onError := policy } }

end Shell

namespace Engine

variable {engine : Engine κ} {s s' : Shell κ} {policy : ErrorPolicy}

open Shell

theorem answer_obeying (inner : Reentry κ) {r : Request κ} (hr : r.Direct) (s : Shell κ) :
    engine.answer inner r (s.obeying policy) =
      (engine.answer inner r s).map fun p => (p.1,p.2.obeying policy) :=
  answer_attuned inner hr (fun c => { c with onError := policy }) id s

/-- The second shell is the first under a policy, where the first stops at errors. -/
def Obeying (policy : ErrorPolicy) (s u : Shell κ) : Prop :=
  s.session.config.onError = .stop ∧ u = s.obeying policy

theorem matches_obeying (hengine : ∀ a, (engine.command a).Direct) (policy : ErrorPolicy) :
    engine.Matches engine Program.direct (Obeying policy) where
  twin := by
    rintro s _ ⟨-,rfl⟩
    exact ⟨rfl,rfl,rfl,rfl,rfl,fun _ => rfl⟩
  driven := by
    rintro s _ console depth ⟨hs,rfl⟩
    exact ⟨hs,rfl⟩
  synced := by
    rintro s _ ⟨hs,rfl⟩
    exact ⟨hs,rfl⟩
  command _ _ := ⟨rfl,fun _ _ _ hb i => (hengine _ _ _ _ hb i).keeps⟩
  direct hr := hr
  answer := by
    rintro r s _ s' a hr ⟨hs,rfl⟩ ha
    refine ⟨trivial,s'.obeying policy,?_,(level_answer hr ha).config ▸ hs,rfl⟩
    rw [answer_obeying _ hr,ha]
    rfl

/-- A course that comes to a value under `stop` is taken under every policy. -/
theorem Runs.obeying {t : Task κ} {x : Except Halt t.Yield} {τ : List (Moment κ)}
    (hengine : ∀ a, (engine.command a).Direct) (h : engine.Runs t s τ x s') (ht : t.Direct)
    (hs : s.session.config.onError = .stop) {v : t.Yield} (hx : x = .ok v)
    (policy : ErrorPolicy) :
    ∃ τ', engine.Runs t (s.obeying policy) τ' x (s'.obeying policy) := by
  have hone : OnePolicy (@Obeying κ policy) x := .inr ⟨fun _ _ hu => hu.1,v,hx⟩
  obtain ⟨τ',_,hτ',-,rfl⟩ := (matches_obeying hengine policy).runs h ht.keeps hone _ ⟨hs,rfl⟩
  exact ⟨τ',hτ'⟩

/-- How a line takes its course where errors do not stop it. -/
structure Resumes (engine : Engine κ) (s : Shell κ) (τ : List (Moment κ))
    (o : Except ShellError (Option Value)) (s' : Shell κ) : Prop where
  /-- What the line fails with is no failure of a statement, nor was it caused by one. -/
  confined : ∀ e, o = .error e → ¬e.Stems
  reported : AllReported τ
  once : reports τ = failures τ
  /-- What is written at the moments of the course goes where it should. -/
  flows : engine.Flows s.layer τ s'.layer
  errors : s.session.console.merged = false → s'.session.console.errors =
    s.session.console.errors ++ (reports τ).flatMap ShellError.report
  /-- On every level the statements of the lines there are run one after the other, unless the
  course ends inside of it with an error. -/
  onwards : ∀ level, Pursues ((onLevel level Happening.line? τ).flatMap Line.stated) level τ
    (Halt.of? (o.mapError .failed))

theorem Runs.resumes {l : String} {τ : List (Moment κ)} {o : Except ShellError (Option Value)}
    (hengine : engine.OnlyBuiltins) (hs : s.Forgiving)
    (h : engine.Runs (.line l) s τ (o.mapError .failed) s') : engine.Resumes s τ o s' := by
  have hreported : AllReported τ :=
    (h.accounted hengine.calm trivial hs).allReported (h.settled hengine.calm hs.policy)
  have hcut : o.mapError Halt.failed ≠ .error .cut := by cases o <;> nofun
  have hleveled := h.leveled hengine.direct trivial hs.policy hcut
  refine ⟨?_,hreported,hreported.reports_eq_failures,h.flows,
    fun hm => h.flows.own_errors hs hm hreported,fun level => ?_⟩
  · rintro e rfl
    exact h.confined hengine.calm trivial hs.policy e rfl
  · cases level with
    | nil =>
      have hown := hleveled.own
      rw [hleveled.heads]
      simpa [Task.heads,Task.own] using hown
    | cons f rest => exact hleveled.nested f rest

/-- Where all commands are built-in, a line that comes to a value where errors stop it comes to the
same value where they do not, and leaves the same shell, its streams, variables and aliases among
it. Where errors do not stop lines and can be written, no line fails as a statement does, or because
one did; the failures of statements are reported each once, at whatever depth they arise, and what
follows them is run. -/
theorem policies_agree (hengine : engine.OnlyBuiltins) :
    (∀ l s v s', s.session.config.onError = .stop →
      (∃ n, ((engine.reentry n).execute l).run s = some (.ok v,s')) →
      ∃ n, ((engine.reentry n).execute l).run (s.obeying .proceed) =
        some (.ok v,s'.obeying .proceed)) ∧
    (∀ l s o s', (∃ n, ((engine.reentry n).execute l).run s = some (o,s')) ↔
      ∃ τ, engine.Runs (.line l) s τ (o.mapError .failed) s') ∧
    (∀ l s τ o s', s.Forgiving → engine.Runs (.line l) s τ (Except.mapError .failed o) s' →
      engine.Resumes s τ o s') ∧
    ∀ st s τ e s', s.Forgiving → engine.Runs (.statement st) s τ (.error (.failed e)) s' →
      e.isRecoverable = true →
      ∃ τ₀ what, τ = τ₀ ++ [.now s' what] ∧ what.error? = some e ∧ AllReported τ₀ := by
  refine ⟨fun l s v s' hs hrun => ?_,fun l s o s' => exists_execute_iff_runs,
    fun l s τ o s' hs h => h.resumes hengine hs,
    fun st s τ e s' hs h hr => h.pending hengine.calm hs hr⟩
  obtain ⟨τ,h⟩ := exists_execute_iff_runs.1 hrun
  obtain ⟨τ',h'⟩ := h.obeying hengine.direct trivial hs rfl .proceed
  exact exists_execute_iff_runs.2 ⟨τ',h'⟩

theorem onlyBuiltins_ofBuiltins : ofBuiltins.OnlyBuiltins := fun b => ⟨b,rfl⟩

def attempting (onError : ErrorPolicy) : Shell Builtin :=
  let session := Session.opened (.opened [])
  { kernel := .withBuiltins id
    disk := .empty
    session := { session with
      aliases := session.aliases.define "attempt" "echo $(unalias x; echo in)"
      config := ⟨16,onError,""⟩ } }

/-- A line without failures, and one with a failure in a substitution of an alias and one after
it. -/
theorem policies_agree_attempting :
    (∃ v s', ((ofBuiltins.reentry 20).execute "set X 1; echo $X").run (attempting .stop) =
        some (.ok v,s') ∧
      ∃ n, ((ofBuiltins.reentry n).execute "set X 1; echo $X").run
        ((attempting .stop).obeying .proceed) = some (.ok v,s'.obeying .proceed)) ∧
    ∃ o s' τ, ((ofBuiltins.reentry 20).execute "attempt; nope; pwd").run (attempting .proceed) =
        some (o,s') ∧ ofBuiltins.Resumes (attempting .proceed) τ o s' ∧
      s'.session.console.errors = Text.encode "no such alias: x\ncommand not found: nope\n" ∧
      s'.session.console.output = Text.encode "in\n" := by
  obtain ⟨hagree,hruns,hresumes,-⟩ := policies_agree onlyBuiltins_ofBuiltins
  constructor
  · have hend : (((ofBuiltins.reentry 20).execute "set X 1; echo $X").run (attempting .stop)).map
        (·.1.isOk) = some true := by decide +kernel
    obtain ⟨⟨o,s'⟩,hrun,ho⟩ := Option.map_eq_some_iff.1 hend
    cases o with
    | error e => cases ho
    | ok v => exact ⟨v,s',hrun,hagree _ _ _ _ rfl ⟨20,hrun⟩⟩
  · have hend : (((ofBuiltins.reentry 20).execute "attempt; nope; pwd").run
        (attempting .proceed)).map (fun r => (r.2.session.console.errors,
          r.2.session.console.output)) =
        some (Text.encode "no such alias: x\ncommand not found: nope\n",Text.encode "in\n") := by
      decide +kernel
    obtain ⟨⟨o,s'⟩,hrun,ho⟩ := Option.map_eq_some_iff.1 hend
    obtain ⟨herrors,houtput⟩ := Prod.mk.inj ho
    obtain ⟨τ,hτ⟩ := (hruns _ _ _ _).1 ⟨20,hrun⟩
    exact ⟨o,s',τ,hrun,hresumes _ _ _ _ _ ⟨rfl,rfl⟩ hτ,herrors,houtput⟩

end Engine
end CommandShell
