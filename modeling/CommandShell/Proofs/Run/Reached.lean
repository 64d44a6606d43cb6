import CommandShell.Proofs.Run.Settling

/-! Every course that comes to its end is that of a run.
It is taken at every depth that is large enough; so the rules for courses allow nothing but what a
session does, and more depth never changes a result. -/
namespace CommandShell

variable {κ : Type}

namespace Halt

variable {α β : Type} {o : Except ShellError β} {x : Except Halt α}

theorem eq_ok_of_mapError {v : β} (h : (.ok v : Except Halt β) = o.mapError .failed) :
    o = .ok v := by
  cases o <;> cases h
  rfl

theorem eq_error_of_mapError {e : ShellError}
    (h : (.error (.failed e) : Except Halt β) = o.mapError .failed) : o = .error e := by
  cases o <;> cases h
  rfl

theorem exists_failed_of_mapError {y : Halt} (h : (.error y : Except Halt β) = o.mapError .failed) :
    ∃ e, y = .failed e ∧ o = .error e := by
  cases o <;> cases h
  exact ⟨_,rfl,rfl⟩

theorem exists_of_map {f : α → β} (h : x.map f = o.mapError .failed) :
    ∃ o' : Except ShellError α, x = o'.mapError .failed ∧ o = o'.map f := by
  cases x with
  | ok v => exact ⟨.ok v,rfl,eq_ok_of_mapError h⟩
  | error y =>
    obtain ⟨e,rfl,rfl⟩ := exists_failed_of_mapError h
    exact ⟨.error e,rfl,rfl⟩

end Halt

namespace Engine

variable {engine : Engine κ} {t : Task κ} {s s' s'' : Shell κ} {τ : List (Moment κ)}

/-- What a course comes to that was not cut off is what its task settles for. -/
def Reached (engine : Engine κ) (t : Task κ) (s : Shell κ) (x : Except Halt t.Yield)
    (s' : Shell κ) : Prop :=
  ∀ o, x = o.mapError .failed → engine.Settles t s o s'

theorem reached_cut : engine.Reached t s (.error .cut) s' := by
  intro o ho
  obtain ⟨e,he,-⟩ := Halt.exists_failed_of_mapError ho
  cases he

theorem reached_ok {v : t.Yield} (h : engine.Settles t s (.ok v) s') :
    engine.Reached t s (.ok v) s' := by
  intro o ho
  obtain rfl := Halt.eq_ok_of_mapError ho
  exact h

theorem reached_failed {e : ShellError} (h : engine.Settles t s (.error e) s') :
    engine.Reached t s (.error (.failed e)) s' := by
  intro o ho
  obtain rfl := Halt.eq_error_of_mapError ho
  exact h

namespace Reached

variable {t' : Task κ} {u u' : Shell κ}

theorem ok {v : t.Yield} (h : engine.Reached t s (.ok v) s') : engine.Settles t s (.ok v) s' :=
  h _ rfl

theorem failed {e : ShellError} (h : engine.Reached t s (.error (.failed e)) s') :
    engine.Settles t s (.error e) s' := h _ rfl

/-- Another task makes something of the result. -/
theorem map {x : Except Halt t.Yield} {f : t.Yield → t'.Yield} (h : engine.Reached t s x s')
    (hf : ∀ o, engine.Settles t s o s' → engine.Settles t' u (o.map f) u') :
    engine.Reached t' u (x.map f) u' := by
  intro o ho
  obtain ⟨o',ho',rfl⟩ := Halt.exists_of_map ho
  exact hf o' (h o' ho')

/-- Another task fails as this one does. -/
theorem error {y : Halt} (h : engine.Reached t s (.error y) s')
    (hf : ∀ e, y = .failed e → engine.Settles t s (.error e) s' →
      engine.Settles t' u (.error e) u') : engine.Reached t' u (.error y) u' := by
  intro o ho
  obtain ⟨e,rfl,rfl⟩ := Halt.exists_failed_of_mapError ho
  exact hf e rfl h.failed

end Reached

theorem Runs.reached {x : Except Halt t.Yield} (h : engine.Runs t s τ x s') :
    engine.Reached t s x s' := by
  induction h with
  | cut | nestedCut => exact reached_cut
  | unfinished hp => exact reached_failed (.unfinished hp)
  | parsed hp _ ih => exact fun o ho => .parsed hp (ih o ho)
  | done | assembled | split | finished | failed => exact reached_ok (.of_perform fun _ => rfl)
  | next _ _ ih ih' => exact fun o ho => ih.ok.next (ih' o ho)
  | stopped _ hx ih => exact ih.error fun e he h => h.stopped (he ▸ hx)
  | reported _ hx hw _ ih ih' => exact fun o ho => ih.failed.reported hx hw (ih' o ho)
  | unreported _ hx hw ih => exact reached_failed (ih.failed.unreported hx hw)
  | unexpanded _ ih => exact ih.error fun _ _ h => h.unexpanded
  | blank _ ha ih => exact reached_ok (ih.ok.blank ha)
  | called _ ha _ ih ih' => exact ih'.map fun _ h => ih.ok.called ha h
  | space _ ih => exact fun o ho => (ih o ho).space
  | verbatim _ ih => exact fun o ho => (ih o ho).verbatim
  | text hf _ _ ih ih' => exact fun o ho => .text hf ih.ok (ih' o ho)
  | textFailed hf _ ih => exact ih.error fun _ _ h => .textFailed hf h
  | literal _ ih => exact ih.map fun _ h => h.literal
  | parameter hv _ ih => exact ih.map fun _ h => h.parameter hv
  | parameterFailed hv he => exact reached_failed (.parameterFailed hv he)
  | replaced _ _ ih ih' => exact ih'.map fun _ h => ih.ok.replaced h
  | @unreplaced l rest s τ x s' _ ih =>
    cases x with
    | cut => exact reached_cut
    | failed e => exact reached_failed ih.failed.unreplaced
  | captured _ ih => exact ih.map fun _ h => h.captured
  | outright h => exact reached_ok (.outright h)
  | outrightFailed h => exact reached_failed (.outright h)
  | aliased hr _ ih => exact ih.map fun _ h => h.aliased hr
  | @ran path args s p r body τ result s' hr hb _ ih =>
    have hran := ih.ok.ran hr hb
    cases result with
    | ok v => exact reached_ok hran
    | error f => exact reached_failed hran
  | ranCut _ _ _ ih => exact ih.error fun _ _ h => absurd h Settles.program_ne_error
  | refused hs => exact reached_failed (.refused hs)
  | expanded hs _ ih => exact fun o ho => .expanded hs (ih o ho)
  | answered hd ha _ ih => exact fun o ho => .answered hd ha (ih o ho)
  | nested hr _ _ ih ih' => exact fun o ho => .nested hr (ih _ rfl) (ih' o ho)

variable {o o' : Except ShellError t.Yield}

/-- The task can be performed with this result exactly if it can take a course to it. -/
theorem exists_perform_iff_runs :
    (∃ n, engine.perform (engine.reentry n) t s = some (o,s')) ↔
      ∃ τ, engine.Runs t s τ (o.mapError .failed) s' := by
  constructor
  · rintro ⟨n,hn⟩
    exact engine.follows_perform n t s o s' hn
  · rintro ⟨τ,h⟩
    exact (h.reached o rfl).exists

theorem exists_execute_iff_runs {l : String} {o : Except ShellError (Option Value)} :
    (∃ n, ((engine.reentry n).execute l).run s = some (o,s')) ↔
      ∃ τ, engine.Runs (.line l) s τ (o.mapError .failed) s' := by
  rw [← exists_perform_iff_runs]
  constructor
  · rintro ⟨n,hn⟩
    cases n with
    | zero => cases hn
    | succ n => exact ⟨n,hn⟩
  · rintro ⟨n,hn⟩
    exact ⟨n + 1,hn⟩

theorem Runs.unique {τ' : List (Moment κ)} (h : engine.Runs t s τ (o.mapError .failed) s')
    (h' : engine.Runs t s τ' (o'.mapError .failed) s'') : o = o' ∧ s' = s'' := by
  obtain ⟨n,hn,hn'⟩ := ((h.reached o rfl).and (h'.reached o' rfl)).exists
  exact Prod.mk.inj (Option.some.inj (hn.symm.trans hn'))

/-- Depth decides whether there is a result, but not which. -/
theorem perform_unique {n m : Nat} (h : engine.perform (engine.reentry n) t s = some (o,s'))
    (h' : engine.perform (engine.reentry m) t s = some (o',s'')) : o = o' ∧ s' = s'' := by
  obtain ⟨τ,hτ⟩ := engine.follows_perform n t s o s' h
  obtain ⟨τ',hτ'⟩ := engine.follows_perform m t s o' s'' h'
  exact hτ.unique hτ'

end Engine
end CommandShell
