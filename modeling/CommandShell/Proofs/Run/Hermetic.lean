import CommandShell.Proofs.Run.Sequence
import CommandShell.Proofs.Run.Streams

/-! Substitution leaves the streams alone.
The line runs in a capture of its own, the text is made of what the capture took, and whatever
becomes of the line the session gets its streams back as they were. -/
namespace CommandShell

variable {κ : Type}

namespace Engine

variable {engine : Engine κ} {l : String} {s s' : Shell κ} {τ : List (Moment κ)}

/-- A line ran in a capture of its own, from the shell around it to where the capture is about to
end. -/
structure Hermetic (engine : Engine κ) (s : Shell κ) (τ : List (Moment κ)) (t : Shell κ) :
    Prop where
  /-- What is written is taken moment by moment, in the innermost capture. -/
  flows : engine.Flows s.capture.layer τ t.layer
  /-- At the end the own capture holds the output that no inner capture took. -/
  captures : t.session.console.captures = engine.gathered τ :: s.session.console.captures
  /-- So it does at every moment, under the captures of the substitutions around that moment. -/
  meanwhile : ∀ τ₁ m τ₂, τ = τ₁ ++ m :: τ₂ →
    m.shell.session.console.captures.drop m.layer.depth =
      engine.gathered τ₁ :: s.session.console.captures
  /-- The streams around are as they were. -/
  restored : t.release.session.console.captures = s.session.console.captures
  alike : s.session.console.Alike t.release.session.console
  /-- Nothing but errors reaches the output of the session, where its errors go there. -/
  output : t.release.session.console.output = s.session.console.output ++
    if s.session.console.merged ∧ ¬s.session.console.errorsClosed
      then τ.flatMap (engine.written · .errors) else []

theorem Flows.hermetic {t : Shell κ} (h : engine.Flows s.capture.layer τ t.layer) :
    engine.Hermetic s τ t := by
  have hcaptures : t.session.console.captures =
    engine.gathered τ :: s.session.console.captures := h.base
  have hmeanwhile : ∀ τ₁ m τ₂, τ = τ₁ ++ m :: τ₂ →
      m.shell.session.console.captures.drop m.layer.depth =
        engine.gathered τ₁ :: s.session.console.captures := by
    rintro τ₁ m τ₂ rfl
    exact h.before.base
  obtain ⟨hmerged,houtput,herrors⟩ := h.alike
  refine ⟨h,hcaptures,hmeanwhile,?_,⟨hmerged,houtput,herrors⟩,?_⟩
  · change t.session.console.captures.tail = _
    rw [hcaptures,List.tail_cons]
  -- at no moment is the output of the session itself open to the commands
  have hpassed : ∀ m ∈ τ, m.shell.session.console.passed (engine.written m) .output =
      if s.session.console.merged ∧ ¬s.session.console.errorsClosed
        then engine.written m .errors else [] := by
    intro m hm
    have hcaptured := h.captured (List.cons_ne_nil _ _) hm
    obtain ⟨hmerged',-,herrors'⟩ := h.alike_of_mem hm
    rw [Console.passed,Console.passes,Console.passes,hmerged',herrors']
    simp [hcaptured,Shell.layer,Shell.capture,Shell.updated,Console.capture]
  refine (h.own .output).trans (congrArg _ ?_)
  rw [List.flatMap_congr hpassed]
  split_ifs
  · rfl
  · simp

end Engine

/-- The text is the output up to the line breaks at its end, or that of the value where nothing
was written. -/
structure Spliced (bytes : Bytes) (value : Option Value) (text : String) : Prop where
  written : bytes ≠ [] → ∃ n, Text.decode bytes = text ++ String.ofList (List.replicate n '\n')
  trimmed : bytes ≠ [] → text.toList.getLast? ≠ some '\n'
  unwritten : bytes = [] → text = (value.map Value.text).getD ""

theorem Task.spliced_substituted (bytes : Bytes) (value : Option Value) :
    Spliced bytes value (Task.substituted bytes value) := by
  have htext (h : bytes ≠ []) : Task.substituted bytes value =
      String.ofList ((Text.decode bytes).toList.rdropWhile (· = '\n')) := if_neg h
  refine ⟨fun h => ?_,fun h => ?_,fun h => if_pos h⟩
  · have hbreaks : ∀ c ∈ (Text.decode bytes).toList.rtakeWhile (· = '\n'), c = '\n' :=
      fun c hc => by simpa using List.mem_rtakeWhile_imp hc
    refine ⟨((Text.decode bytes).toList.rtakeWhile (· = '\n')).length,?_⟩
    rw [htext h,← List.eq_replicate_of_mem hbreaks,← String.ofList_append,
      List.rdropWhile_append_rtakeWhile,String.ofList_toList]
  · rw [htext h,String.toList_ofList]
    intro hlast
    have hne := List.ne_nil_of_mem (List.mem_of_getLast? hlast)
    rw [List.getLast?_eq_some_getLast hne] at hlast
    have hkept := List.rdropWhile_last_not _ _ hne
    rw [Option.some.inj hlast] at hkept
    simp at hkept

namespace Engine

variable {engine : Engine κ} {l : String} {s s' : Shell κ} {τ : List (Moment κ)}

theorem Hermetic.release {t : Shell κ} (h : engine.Hermetic s τ t) :
    t.session.console.release.1 = engine.gathered τ := by
  simp [Console.release,h.captures]

theorem runs_substitution {o : Except ShellError String} :
    engine.Runs (.substitution l) s τ (o.mapError .failed) s' ↔
      ∃ v t, engine.Runs (.line l) s.capture τ (Except.mapError .failed v) t ∧ s' = t.release ∧
        o = v.map (Task.substituted (engine.gathered τ)) := by
  constructor
  · intro h
    generalize hx : o.mapError Halt.failed = x at h
    cases h with
    | cut =>
      obtain ⟨e,he,-⟩ := Halt.exists_failed_of_mapError hx.symm
      cases he
    | captured h =>
      obtain ⟨v,rfl,rfl⟩ := Halt.exists_of_map hx.symm
      exact ⟨v,_,h,rfl,by rw [h.flows.hermetic.release]⟩
  · rintro ⟨v,t,h,rfl,rfl⟩
    have hcaptured := Runs.captured h
    rw [h.flows.hermetic.release] at hcaptured
    cases v <;> exact hcaptured

theorem expandPart_command_iff (engine : Engine κ) {inner : Reentry κ}
    {o : Except ShellError String} :
    (inner.expandPart (.command l)).run s = some (o,s') ↔
      ∃ o', engine.perform inner (.substitution l) s = some (o',s') ∧
        o = o'.mapError (Frame.substitution l).carry := by
  constructor
  · intro h
    rw [Reentry.expandPart_command] at h
    obtain ⟨o',t,hsub,h⟩ := Act.bind_eq_some.1 h
    obtain ⟨rfl,rfl⟩ := Act.pure_eq_some.1 h
    exact ⟨o',hsub,rfl⟩
  · rintro ⟨o',hsub,rfl⟩
    exact expandPart_command_run hsub

/-- Whatever commands there are and whatever line is substituted, with its result, an error or a
request to exit: nothing of its output reaches the session, also where the output of the session
takes nothing, and the streams are given back as they were. Output goes to the capture of the
innermost substitution around, and the text is made of what the own capture took. -/
theorem substitution_hermetic (engine : Engine κ) (l : String) (s : Shell κ) :
    (∀ o s', (∃ n, ((engine.reentry n).expandPart (.command l)).run s = some (o,s')) ↔
      ∃ τ v t, engine.Runs (.line l) s.capture τ (Except.mapError .failed v) t ∧
        s' = t.release ∧ o = (v.map (Task.substituted (engine.gathered τ))).mapError
          (Frame.substitution l).carry) ∧
    (∀ τ x t, engine.Runs (.line l) s.capture τ x t → engine.Hermetic s τ t) ∧
    ∀ bytes v, Spliced bytes v (Task.substituted bytes v) := by
  refine ⟨fun o s' => ⟨?_,?_⟩,fun _ _ _ h => h.flows.hermetic,Task.spliced_substituted⟩
  · rintro ⟨n,hn⟩
    obtain ⟨o',hsub,rfl⟩ := (expandPart_command_iff engine).1 hn
    obtain ⟨τ,hτ⟩ := engine.follows_perform n _ s o' s' hsub
    obtain ⟨v,t,hline,rfl,rfl⟩ := runs_substitution.1 hτ
    exact ⟨τ,v,t,hline,rfl,rfl⟩
  · rintro ⟨τ,v,t,hline,rfl,rfl⟩
    obtain ⟨n,hn⟩ := exists_perform_iff_runs.2 ⟨τ,runs_substitution.2 ⟨v,t,hline,rfl,rfl⟩⟩
    exact ⟨n,(expandPart_command_iff engine).2 ⟨_,hn,rfl⟩⟩

def refusing : Shell Builtin :=
  let session := Session.opened { Console.opened [] with outputClosed := true }
  { kernel := .withBuiltins id
    disk := .empty
    session := { session with aliases := session.aliases.define "twice" "echo $(echo b)" } }

/-- The text is that of two captures, one in the other, and nothing was refused. -/
theorem substitution_hermetic_refusing :
    ∃ s' τ v t, ((ofBuiltins.reentry 20).expandPart (.command "echo a; twice c")).run refusing =
        some (.ok "a\nb c",s') ∧
      ofBuiltins.Runs (.line "echo a; twice c") refusing.capture τ (Except.mapError .failed v) t ∧
      s' = t.release ∧ ofBuiltins.Hermetic refusing τ t ∧
      s'.session.console.captures = [] ∧ s'.session.console.output = [] ∧
      s'.session.console.outputClosed = true := by
  have hend : (((ofBuiltins.reentry 20).expandPart (.command "echo a; twice c")).run
      refusing).map (·.1.toOption) = some (some "a\nb c") := by decide +kernel
  obtain ⟨⟨o,s'⟩,hrun,ho⟩ := Option.map_eq_some_iff.1 hend
  obtain ⟨hruns,hhermetic,-⟩ := substitution_hermetic ofBuiltins "echo a; twice c" refusing
  obtain ⟨τ,v,t,hline,rfl,hv⟩ := (hruns o s').1 ⟨20,hrun⟩
  have h := hhermetic _ _ _ hline
  cases o with
  | error e => cases ho
  | ok text =>
    obtain rfl : text = "a\nb c" := Option.some.inj ho
    have houtput := h.output
    rw [if_neg (by simp [refusing,Session.opened,Console.opened])] at houtput
    exact ⟨t.release,τ,v,t,hrun,hline,rfl,h,h.restored,houtput,h.alike.outputClosed⟩

end Engine
end CommandShell
