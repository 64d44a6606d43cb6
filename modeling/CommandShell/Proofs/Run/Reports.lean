import CommandShell.Proofs.Run.Causes
import CommandShell.Proofs.Run.Errors
import CommandShell.Proofs.Run.Streams

/-! How the failures of statements are reported.
Where errors do not stop a line, every failure of a statement is followed at once by its report,
which is all that is written to the stream of errors, and the line goes on with the next statement.
-/
namespace CommandShell

variable {κ : Type}

def ShellError.report (e : ShellError) : Bytes := Text.encode (e.message ++ "\n")

/-- Nothing fails but what ends its line, nothing is reported, and no command writes an error. -/
structure Happening.Smooth (h : Happening κ) : Prop where
  error : ∀ e, h.error? = some e → e.isRecoverable = false
  report : ∀ e, h ≠ .reported e
  write : ∀ bytes, h ≠ .request (.write .errors bytes)

/-- Every error that only fails its statement is reported at once where it arises, and nothing else
is reported. -/
inductive AllReported : List (Moment κ) → Prop
  | nil : AllReported []
  | smooth {m τ} (hm : m.what.Smooth) (h : AllReported τ) : AllReported (m :: τ)
  | report {m e τ} (he : m.what.error? = some e) (hr : e.isRecoverable = true)
      (h : AllReported τ) : AllReported (m :: { m with what := .reported e } :: τ)

/-- The errors that only fail their statement, in the order in which they arise. -/
def failures (τ : List (Moment κ)) : List ShellError :=
  τ.filterMap fun m => m.what.error?.filter ShellError.isRecoverable

/-- The errors that are reported, in order. -/
def reports (τ : List (Moment κ)) : List ShellError :=
  τ.filterMap fun m =>
    match m.what with
    | .reported e => some e
    | _ => none

namespace AllReported

variable {τ τ' : List (Moment κ)} {m : Moment κ}

theorem append (h : AllReported τ) (h' : AllReported τ') : AllReported (τ ++ τ') := by
  induction h with
  | nil => exact h'
  | smooth hm _ ih => exact .smooth hm ih
  | report he hr _ ih => exact .report he hr ih

theorem inside (f : Frame) (h : AllReported τ) : AllReported (τ.map (Moment.inside f)) := by
  induction h with
  | nil => exact .nil
  | @smooth m τ hm _ ih => exact @smooth κ (m.inside f) _ hm ih
  | @report m e τ he hr _ ih => exact @report κ (m.inside f) e _ he hr ih

theorem singleton (hm : m.what.Smooth) : AllReported [m] := .smooth hm .nil

theorem reports_of_smooth (hm : m.what.Smooth) : reports (m :: τ) = reports τ := by
  obtain ⟨around,s,what⟩ := m
  cases what with
  | reported e => exact absurd rfl (hm.report e)
  | _ => rfl

theorem reports_of_error {e e' : ShellError} (he : m.what.error? = some e) :
    reports (m :: { m with what := .reported e' } :: τ) = e' :: reports τ := by
  obtain ⟨around,s,what⟩ := m
  cases what <;> first | rfl | cases he

/-- What fails its statement is reported, each error once and in the order of the failures. -/
theorem reports_eq_failures (h : AllReported τ) : reports τ = failures τ := by
  induction h with
  | nil => rfl
  | @smooth m τ hm _ ih =>
    have hfilter : m.what.error?.filter ShellError.isRecoverable = none := by
      cases he : m.what.error? with
      | none => rfl
      | some e => simp [hm.error e he]
    simp only [reports_of_smooth hm,ih,failures,List.filterMap_cons,hfilter]
  | @report m e τ he hr _ ih =>
    have hfilter : m.what.error?.filter ShellError.isRecoverable = some e := by simp [he,hr]
    simp only [reports_of_error he,ih,failures,List.filterMap_cons,hfilter]
    rfl

theorem written_of_smooth (engine : Engine κ) (hm : m.what.Smooth) :
    engine.written m .errors = [] := by
  obtain ⟨around,s,what⟩ := m
  cases what with
  | request r =>
    cases r with
    | write channel bytes =>
      cases channel with
      | output => rfl
      | errors => exact absurd rfl (hm.write bytes)
    | _ => rfl
  | reported e => exact absurd rfl (hm.report e)
  | _ => rfl

theorem written_of_error (engine : Engine κ) {e : ShellError} (he : m.what.error? = some e) :
    engine.written m .errors = [] := by
  obtain ⟨around,s,what⟩ := m
  cases what <;> first | rfl | cases he

theorem written_errors (engine : Engine κ) (h : AllReported τ) :
    τ.flatMap (engine.written · .errors) = (reports τ).flatMap ShellError.report := by
  induction h with
  | nil => rfl
  | smooth hm _ ih =>
    rw [List.flatMap_cons,written_of_smooth engine hm,reports_of_smooth hm,ih,List.nil_append]
  | report he _ _ ih =>
    rw [List.flatMap_cons,List.flatMap_cons,written_of_error engine he,reports_of_error he,
      List.flatMap_cons,← ih]
    rfl

end AllReported

/-- Every failure in the course was reported, except perhaps the last one, with which the course
ends. -/
inductive Accounted : List (Moment κ) → Option Halt → Shell κ → Prop
  | settled {τ x s} (h : AllReported τ) (hx : ∀ e, x = some (.failed e) → e.isRecoverable = false) :
      Accounted τ x s
  | pending {τ what e s} (h : AllReported τ) (he : what.error? = some e)
      (hr : e.isRecoverable = true) : Accounted (τ ++ [.now s what]) (some (.failed e)) s

namespace Accounted

variable {τ τ' : List (Moment κ)} {m : Moment κ} {x : Option Halt} {e : ShellError} {s : Shell κ}

theorem nil (hx : ∀ e, x ≠ some (.failed e)) : Accounted ([] : List (Moment κ)) x s :=
  .settled .nil fun e he => absurd he (hx e)

theorem after (h : AllReported τ) (h' : Accounted τ' x s) : Accounted (τ ++ τ') x s := by
  cases h' with
  | settled h' hx => exact .settled (h.append h') hx
  | pending h' he hr =>
    rw [← List.append_assoc]
    exact .pending (h.append h') he hr

theorem cons (hm : m.what.Smooth) (h : Accounted τ x s) : Accounted (m :: τ) x s :=
  after (.singleton hm) h

theorem allReported (h : Accounted τ x s)
    (hx : ∀ e, x = some (.failed e) → e.isRecoverable = false) : AllReported τ := by
  cases h with
  | settled h _ => exact h
  | pending h he hr =>
    rw [hx _ rfl] at hr
    cases hr

theorem reported (h : Accounted τ (some (.failed e)) s) (hr : e.isRecoverable = true) :
    AllReported (τ ++ [.now s (.reported e)]) := by
  cases h with
  | settled _ hx =>
    rw [hx e rfl] at hr
    cases hr
  | @pending τ what _ _ h he _ =>
    rw [List.append_assoc]
    exact h.append (@AllReported.report κ (.now s what) e _ he hr .nil)

theorem last {what : Happening κ} (he : what.error? = some e)
    (hw : e.isRecoverable = false → what.Smooth) :
    Accounted [.now s what] (some (.failed e)) s := by
  cases hr : e.isRecoverable with
  | true => exact @pending κ [] what e s .nil he hr
  | false =>
    refine .settled (.singleton (hw hr)) ?_
    rintro e' ⟨rfl⟩
    exact hr

end Accounted

theorem Happening.smooth_raised {e : ShellError} (h : e.isRecoverable = false) :
    (raised e : Happening κ).Smooth := by
  refine ⟨?_,nofun,nofun⟩
  rintro e' ⟨rfl⟩
  exact h

theorem Happening.smooth_ended {action : κ} {path : String} {args : List String}
    {result : Except Failure Value}
    (h : ∀ f, result = .error f → (f.raise path args).isRecoverable = false) :
    (ended action path args result).Smooth := by
  refine ⟨fun e he => ?_,nofun,nofun⟩
  cases result with
  | ok v => cases he
  | error f =>
    cases he
    exact h f rfl

namespace Accounted

theorem raised (e : ShellError) (s : Shell κ) :
    Accounted [.now s (.raised e)] (some (.failed e)) s :=
  .last rfl Happening.smooth_raised

theorem ended (action : κ) (path : String) (args : List String) (result : Except Failure Value)
    (s : Shell κ) : Accounted [.now s (.ended action path args result)]
      (Halt.of? (result.mapError fun f => Halt.failed (f.raise path args))) s := by
  cases result with
  | ok v => exact .cons (Happening.smooth_ended nofun) (.nil nofun)
  | error f =>
    refine .last rfl fun hr => Happening.smooth_ended ?_
    rintro f' ⟨rfl⟩
    exact hr

end Accounted

/-- Errors do not stop the lines of the session, and can be reported. -/
structure Shell.Forgiving (s : Shell κ) : Prop where
  policy : s.session.config.onError = .proceed
  opened : s.session.console.errorsClosed = false

namespace Engine

variable {engine : Engine κ} {s s' : Shell κ} {t : Task κ} {τ : List (Moment κ)}
  {x : Except Halt t.Yield}

open Shell

theorem Runs.alike (h : engine.Runs t s τ x s') :
    s.session.console.Alike s'.session.console := by
  have hflows := h.flows
  cases t with
  | substitution l =>
    obtain ⟨u,rfl,hu⟩ := hflows
    obtain ⟨hmerged,houtput,herrors⟩ := hu.alike
    exact ⟨hmerged,houtput,herrors⟩
  | _ => exact hflows.alike

theorem Runs.forgiving (h : engine.Runs t s τ x s') (hs : s.Forgiving) : s'.Forgiving :=
  ⟨h.level.config ▸ hs.policy,h.alike.errorsClosed.trans hs.opened⟩

theorem Forgiving.withConsole {channel : Channel} {bytes : Bytes} {c : Console} (hs : s.Forgiving)
    (hw : s.session.console.write channel bytes = .ok c) : (s.withConsole c).Forgiving :=
  ⟨hs.policy,(Console.takes_write hw).errorsClosed.trans hs.opened⟩

theorem Forgiving.write_ok (hs : s.Forgiving) {bytes : Bytes} {io : IoError} :
    s.session.console.write .errors bytes ≠ .error io := by
  simp only [Console.write,hs.opened,Bool.false_eq_true,if_false]
  split_ifs <;> simp

theorem settled_of_not_stems {α : Type} {x : Except Halt α}
    (h : ∀ e, x = .error (.failed e) → ¬e.Stems) :
    ∀ e, Halt.of? x = some (.failed e) → e.isRecoverable = false := by
  intro e he
  cases x with
  | ok v => cases he
  | error y =>
    cases he
    exact Bool.eq_false_iff.2 fun hr => h e rfl (.here hr)

theorem settled_carry {α β : Type} {x : Halt} {f : Frame}
    (h : ∀ e, Halt.of? (.error x : Except Halt α) = some (.failed e) → e.isRecoverable = false) :
    ∀ e, Halt.of? (.error (x.carry f) : Except Halt β) = some (.failed e) →
      e.isRecoverable = false := by
  intro e he
  cases x with
  | cut => cases he
  | failed e' =>
    cases he
    have hinner := h e' rfl
    exact Bool.eq_false_iff.2 fun hr =>
      Bool.eq_false_iff.1 hinner (Frame.isRecoverable_of_carry hr)

theorem Runs.settled {l : String} {x : Except Halt (Option Value)}
    (hengine : ∀ a, (engine.command a).Calm) (h : engine.Runs (.line l) s τ x s')
    (hs : s.session.config.onError = .proceed) :
    ∀ e, Halt.of? x = some (.failed e) → e.isRecoverable = false :=
  settled_of_not_stems (h.confined hengine trivial hs)

theorem Runs.accounted (hengine : ∀ a, (engine.command a).Calm) (h : engine.Runs t s τ x s')
    (ht : t.Calm) (hs : s.Forgiving) : Accounted τ (Halt.of? x) s' := by
  induction h with
  | cut | done | assembled | split | finished | failed => exact .nil nofun
  | unfinished => exact .cons ⟨nofun,nofun,nofun⟩ (.raised _ _)
  | parsed _ _ ih | unexpanded _ ih | blank _ _ ih =>
    exact .cons ⟨nofun,nofun,nofun⟩ (ih trivial hs)
  | next h _ ih ih' | text _ h _ ih ih' =>
    exact .after ((ih trivial hs).allReported nofun) (ih' trivial (h.forgiving hs))
  | stopped _ _ ih | space _ ih | verbatim _ ih | textFailed _ _ ih => exact ih trivial hs
  | reported h hx hw _ ih ih' =>
    have hreported := (ih trivial hs).reported hx.2
    have hrest := ih' trivial (Forgiving.withConsole (h.forgiving hs) hw)
    have hboth := Accounted.after hreported hrest
    rwa [List.append_assoc] at hboth
  | unreported h _ hw => exact absurd hw (Forgiving.write_ok (h.forgiving hs))
  | called h _ _ ih ih' =>
    rw [Halt.of?_map]
    exact .after (.smooth ⟨nofun,nofun,nofun⟩ ((ih trivial hs).allReported nofun))
      (ih' trivial (h.forgiving hs))
  | literal _ ih | parameter _ _ ih =>
    rw [Halt.of?_map]
    exact ih trivial hs
  | captured h ih =>
    rw [Halt.of?_map]
    have hsettled := h.settled hengine hs.policy
    exact .settled ((ih trivial ⟨hs.policy,hs.opened⟩).allReported hsettled) hsettled
  | parameterFailed | refused => exact .raised _ _
  | replaced h _ ih ih' =>
    rw [Halt.of?_map]
    exact .after (((ih trivial hs).allReported nofun).inside _) (ih' trivial (h.forgiving hs))
  | @unreplaced l rest s τ x s' h ih =>
    have hsettled := settled_of_not_stems (h.confined hengine trivial hs.policy)
    exact .settled (((ih trivial hs).allReported hsettled).inside _) (settled_carry hsettled)
  | outright => exact .cons ⟨nofun,nofun,nofun⟩ (.nil nofun)
  | outrightFailed => exact .cons ⟨nofun,nofun,nofun⟩ (.raised _ _)
  | aliased _ _ ih =>
    rw [Halt.of?_map]
    exact .cons ⟨nofun,nofun,nofun⟩ (ih trivial ⟨hs.policy,hs.opened⟩)
  | @ran path args s p r body τ result s' _ hb _ ih =>
    have hquiet := (ih (hengine _ _ _ _ hb _) ⟨hs.policy,hs.opened⟩).allReported nofun
    exact .after (.smooth ⟨nofun,nofun,nofun⟩ (hquiet.inside _)) (.ended _ path args result s')
  | @ranCut path args s p r body τ x s' _ hb h ih =>
    have hcalm : (Task.program (body ⟨path,args⟩)).Calm := hengine _ _ _ _ hb _
    have hsettled := settled_of_not_stems fun e he =>
      absurd he ((h.confined hengine hcalm hs.policy).2 e)
    have hquiet := (ih hcalm ⟨hs.policy,hs.opened⟩).allReported hsettled
    exact .cons ⟨nofun,nofun,nofun⟩ (.settled (hquiet.inside _) hsettled)
  | expanded _ h ih =>
    have hsettled := h.settled hengine hs.policy
    have hinner := (ih trivial ⟨hs.policy,hs.opened⟩).allReported hsettled
    exact .settled (hinner.inside _) hsettled
  | answered hd ha _ ih =>
    refine .cons ⟨nofun,nofun,?_⟩ (ih (ht.2 _ (hears_answer ha)) ?_)
    · rintro bytes ⟨rfl⟩
      exact ht.1.2 bytes rfl
    · exact ⟨(level_answer hd ha).config ▸ hs.policy,
        (takes_answer hd ha).errorsClosed.trans hs.opened⟩
  | nested hr | nestedCut hr => cases hr <;> exact ht.1.1.elim

/-- A statement that only fails itself leaves its own error to be reported, and no other. -/
theorem Runs.pending (hengine : ∀ a, (engine.command a).Calm) {st : Statement} {e : ShellError}
    (h : engine.Runs (.statement st) s τ (.error (.failed e)) s') (hs : s.Forgiving)
    (hr : e.isRecoverable = true) :
    ∃ τ₀ what, τ = τ₀ ++ [.now s' what] ∧ what.error? = some e ∧ AllReported τ₀ := by
  have haccounted := h.accounted hengine trivial hs
  generalize hx : Halt.of? (.error (.failed e) : Except Halt (Option Value)) = x at haccounted
  cases haccounted with
  | settled _ hsettled =>
    rw [hsettled e hx.symm] at hr
    cases hr
  | pending hquiet he _ =>
    cases hx
    exact ⟨_,_,rfl,he,hquiet⟩

theorem Flows.own_errors (h : engine.Flows s.layer τ s'.layer) (hs : s.Forgiving)
    (hm : s.session.console.merged = false) (hreported : AllReported τ) :
    s'.session.console.errors =
      s.session.console.errors ++ (reports τ).flatMap ShellError.report := by
  have hpassed : ∀ m ∈ τ, m.shell.session.console.passed (engine.written m) .errors =
      engine.written m .errors := by
    intro m hmem
    obtain ⟨hmerged,-,herrors⟩ := h.alike_of_mem hmem
    have hmerged' : m.shell.session.console.merged = false := hmerged.trans hm
    have herrors' : m.shell.session.console.errorsClosed = false := herrors.trans hs.opened
    simp [Console.passed,Console.passes,hmerged',herrors']
  refine (h.own .errors).trans (congrArg _ ?_)
  rw [List.flatMap_congr hpassed,hreported.written_errors]

end Engine
end CommandShell
