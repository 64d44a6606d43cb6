import Mathlib.Data.List.Induction
import CommandShell.Proofs.Run.Causes
import CommandShell.Proofs.Run.Errors

/-! Which statements of the lines of a course are run.
A level is what a moment lies inside of. Where errors do not stop a line, the statements that are
run on a level are those of the lines that are taken up there, all of them and in their order, but
for the levels around an error with which the course ends. -/
namespace CommandShell

variable {κ α : Type}

deriving instance DecidableEq for Frame

namespace Happening

def line? : Happening κ → Option String
  | line text => some text
  | _ => none

def statement? : Happening κ → Option Statement
  | statement st => some st
  | _ => none

end Happening

def Line.stated (text : String) : List Statement :=
  match parse text with
  | .ok p => p.statements
  | .error _ => []

section Levels

variable {level : List Frame} {τ τ' : List (Moment κ)} {what? : Happening κ → Option α}
  {x : Option Halt}

/-- What happens on a level, as far as it is asked for. -/
def onLevel (level : List Frame) (what? : Happening κ → Option α) (τ : List (Moment κ)) : List α :=
  τ.filterMap fun m => if m.around = level then what? m.what else none

theorem onLevel_append : onLevel level what? (τ ++ τ') =
    onLevel level what? τ ++ onLevel level what? τ' := List.filterMap_append

theorem onLevel_now (s : Shell κ) (what : Happening κ) :
    onLevel [] what? [.now s what] = (what? what).toList := by
  cases h : what? what <;> simp [onLevel,Moment.now,h]

theorem onLevel_now_inside (f : Frame) (s : Shell κ) (what : Happening κ) :
    onLevel (f :: level) what? [.now s what] = [] := by
  simp [onLevel,Moment.now]

theorem onLevel_inside (f : Frame) :
    onLevel (f :: level) what? (τ.map (Moment.inside f)) = onLevel level what? τ := by
  simp [onLevel,List.filterMap_map,Moment.inside]

theorem onLevel_outside (f : Frame) (h : ∀ rest, level ≠ f :: rest) :
    onLevel level what? (τ.map (Moment.inside f)) = [] := by
  simp only [onLevel,List.filterMap_map,List.filterMap_eq_nil_iff,Function.comp_apply,
    Moment.inside]
  exact fun m _ => if_neg fun he => h m.around he.symm

def ending (τ : List (Moment κ)) : List Frame := (τ.getLast?.map Moment.around).getD []

theorem ending_append (h : level <+: ending τ') : level <+: ending (τ ++ τ') := by
  cases τ' using List.reverseRecOn with
  | nil =>
    rw [List.prefix_nil.1 h]
    exact List.nil_prefix
  | append_singleton τ' m =>
    rw [← List.append_assoc]
    simpa [ending] using h

theorem ending_inside (f : Frame) (hτ : τ ≠ []) :
    ending (τ.map (Moment.inside f)) = f :: ending τ := by
  cases τ using List.reverseRecOn with
  | nil => exact absurd rfl hτ
  | append_singleton τ m => simp [ending,Moment.inside]

/-- The course ends with an error that does not let its line go on. -/
def Halt.Ends (x : Option Halt) : Prop := ∃ e, x = some (.failed e) ∧ e.isRecoverable = false

theorem Halt.not_ends_none : ¬Halt.Ends none := by
  rintro ⟨e,he,-⟩
  cases he

/-- These statements are run on the level, in their order. Some are left only where the course ends
inside of the level with an error. -/
def Pursues (wanted : List Statement) (level : List Frame) (τ : List (Moment κ))
    (x : Option Halt) : Prop :=
  ∃ left, onLevel level Happening.statement? τ ++ left = wanted ∧
    (left ≠ [] → Halt.Ends x ∧ level <+: ending τ)

variable {wanted wanted' own own' : List Statement} {heads heads' : List String}

theorem Pursues.all (h : Pursues wanted level τ x) (hx : ¬Halt.Ends x) :
    onLevel level Happening.statement? τ = wanted := by
  obtain ⟨left,hleft,hends⟩ := h
  by_cases hnil : left = []
  · rw [← hleft,hnil,List.append_nil]
  · exact absurd (hends hnil).1 hx

theorem Pursues.append (h : onLevel level Happening.statement? τ = wanted)
    (h' : Pursues wanted' level τ' x) : Pursues (wanted ++ wanted') level (τ ++ τ') x := by
  obtain ⟨left,hleft,hends⟩ := h'
  refine ⟨left,?_,fun hne => ⟨(hends hne).1,ending_append (hends hne).2⟩⟩
  rw [onLevel_append,List.append_assoc,hleft,h]

/-- The course takes up the lines `heads` and pursues the statements `own` on the level on which
it begins, and on every level inside of it the statements of the lines that are taken up there. -/
structure Leveled (heads : List String) (own : List Statement) (τ : List (Moment κ))
    (x : Option Halt) : Prop where
  heads : onLevel [] Happening.line? τ = heads
  own : Pursues own [] τ x
  nested : ∀ f rest, Pursues ((onLevel (f :: rest) Happening.line? τ).flatMap Line.stated)
    (f :: rest) τ x

namespace Leveled

theorem nil : Leveled [] [] ([] : List (Moment κ)) x :=
  ⟨rfl,⟨[],rfl,absurd rfl⟩,fun _ _ => ⟨[],rfl,absurd rfl⟩⟩

theorem now (s : Shell κ) (what : Happening κ) :
    Leveled what.line?.toList what.statement?.toList [.now s what] x := by
  refine ⟨onLevel_now s what,⟨[],?_,absurd rfl⟩,fun f rest => ⟨[],?_,absurd rfl⟩⟩
  · rw [onLevel_now,List.append_nil]
  · rw [onLevel_now_inside,onLevel_now_inside]
    rfl

theorem append {y : Option Halt} (h : Leveled heads own τ y) (hy : ¬Halt.Ends y)
    (h' : Leveled heads' own' τ' x) : Leveled (heads ++ heads') (own ++ own') (τ ++ τ') x := by
  refine ⟨?_,.append (h.own.all hy) h'.own,fun f rest => ?_⟩
  · rw [onLevel_append,h.heads,h'.heads]
  · rw [onLevel_append,List.flatMap_append]
    exact .append ((h.nested f rest).all hy) (h'.nested f rest)

theorem cons {s : Shell κ} {what : Happening κ} (hl : what.line? = none)
    (hs : what.statement? = none) (h : Leveled heads own τ x) :
    Leveled heads own (.now s what :: τ) x := by
  have hnow : Leveled [] [] [Moment.now s what] none := by
    simpa [hl,hs] using now (x := none) s what
  exact hnow.append Halt.not_ends_none h

theorem raised (s : Shell κ) (e : ShellError) : Leveled [] [] [Moment.now s (.raised e)] x :=
  .cons rfl rfl .nil

theorem line (s : Shell κ) (l : String) (h : Leveled heads own τ x) :
    Leveled (l :: heads) own (.now s (.line l) :: τ) x :=
  (now s (.line l)).append Halt.not_ends_none h

theorem statement (s : Shell κ) (st : Statement) (h : Leveled heads own τ x) :
    Leveled heads (st :: own) (.now s (.statement st) :: τ) x :=
  (now s (.statement st)).append Halt.not_ends_none h

/-- Where the course ends with an error, more may have been wanted on its level. -/
theorem leave (h : Leveled heads own τ x) (hx : Halt.Ends x) (rest : List Statement) :
    Leveled heads (own ++ rest) τ x := by
  obtain ⟨left,hleft,-⟩ := h.own
  refine ⟨h.heads,⟨left ++ rest,?_,fun _ => ⟨hx,List.nil_prefix⟩⟩,h.nested⟩
  rw [← List.append_assoc,hleft]

theorem inside {y : Option Halt} (f : Frame) (h : Leveled heads own τ y)
    (hown : heads.flatMap Line.stated = own) (hy : Halt.Ends y → Halt.Ends x) :
    Leveled [] [] (τ.map (Moment.inside f)) x := by
  have hpursued : ∀ level, Pursues ((onLevel level Happening.line? τ).flatMap Line.stated) level τ
      y := by
    intro level
    cases level with
    | nil => exact h.heads ▸ hown ▸ h.own
    | cons g rest => exact h.nested g rest
  have hbegin : ∀ rest, ([] : List Frame) ≠ f :: rest := nofun
  refine ⟨onLevel_outside f hbegin,⟨[],?_,absurd rfl⟩,fun g rest => ?_⟩
  · rw [onLevel_outside f hbegin]
    rfl
  by_cases hg : g = f
  · subst hg
    obtain ⟨left,hleft,hends⟩ := hpursued rest
    rw [onLevel_inside]
    refine ⟨left,?_,fun hne => ⟨hy (hends hne).1,?_⟩⟩
    · rw [onLevel_inside,hleft]
    · have hτ : τ ≠ [] := by
        rintro rfl
        exact hne (List.append_eq_nil_iff.1 hleft).2
      rw [ending_inside g hτ]
      exact List.cons_prefix_cons.2 ⟨rfl,(hends hne).2⟩
  · have houtside : ∀ rest', g :: rest ≠ f :: rest' := fun rest' he => hg (List.cons.inj he).1
    refine ⟨[],?_,absurd rfl⟩
    rw [onLevel_outside f houtside,onLevel_outside f houtside]
    rfl

end Leveled
end Levels

def Task.heads : Task κ → List String
  | line text | substitution text => [text]
  | _ => []

def Task.own : Task κ → List Statement
  | line text | substitution text => Line.stated text
  | statements _ rest => rest
  | statement st => [st]
  | _ => []

namespace Engine

variable {engine : Engine κ} {s s' : Shell κ} {t : Task κ} {τ : List (Moment κ)}
  {x : Except Halt t.Yield}

theorem ends_of_not_passes {α : Type} {x : Halt} {c : Config} (hc : c.onError = .proceed)
    (hx : ¬x.Passes c) (hcut : x ≠ .cut) : Halt.Ends (Halt.of? (.error x : Except Halt α)) := by
  cases x with
  | cut => exact absurd rfl hcut
  | failed e => exact ⟨e,rfl,Bool.eq_false_iff.2 fun hr => hx ⟨hc,hr⟩⟩

theorem ends_carry {α β : Type} {x : Halt} {f : Frame}
    (h : Halt.Ends (Halt.of? (.error x : Except Halt α))) :
    Halt.Ends (Halt.of? (.error (x.carry f) : Except Halt β)) := by
  obtain ⟨e,⟨rfl⟩,he⟩ := h
  exact ⟨f.carry e,rfl,Bool.eq_false_iff.2 fun hr =>
    Bool.eq_false_iff.1 he (Frame.isRecoverable_of_carry hr)⟩

theorem stated_of_parse {l : String} {p : Line} (hp : Line.parse l = .ok p) :
    Line.stated l = p.statements := by simp [Line.stated,hp]

theorem not_ends_of_passes {α : Type} {e : ShellError} {c : Config}
    (hx : (Halt.failed e).Passes c) :
    ¬Halt.Ends (Halt.of? (.error (.failed e) : Except Halt α)) := by
  rintro ⟨e',⟨rfl⟩,he⟩
  exact Bool.eq_false_iff.1 he hx.2

theorem ne_cut_of_map {α β : Type} {f : α → β} {x : Except Halt α} (h : x.map f ≠ .error .cut) :
    x ≠ .error .cut := by
  rintro rfl
  exact h rfl

theorem ne_cut_of_error {α β : Type} {x : Halt} (h : (.error x : Except Halt α) ≠ .error .cut) :
    (.error x : Except Halt β) ≠ .error .cut := by
  rintro ⟨rfl⟩
  exact h rfl

theorem ne_cut_of_carry {α β : Type} {x : Halt} {f : Frame}
    (h : (.error (x.carry f) : Except Halt α) ≠ .error .cut) :
    (.error x : Except Halt β) ≠ .error .cut := by
  rintro ⟨rfl⟩
  exact h rfl

theorem Runs.leveled (hengine : ∀ a, (engine.command a).Direct) (h : engine.Runs t s τ x s')
    (ht : t.Direct) (hs : s.session.config.onError = .proceed) (hx : x ≠ .error .cut) :
    Leveled t.heads t.own τ (Halt.of? x) := by
  induction h with
  | cut => exact absurd rfl hx
  | done | assembled | split | finished | failed => exact .nil
  | @unfinished l s e hp =>
    have hstated : Line.stated l = [] := by simp [Line.stated,hp]
    rw [Task.own,hstated]
    exact .line s l (.raised s _)
  | @parsed l s p τ o s' hp _ ih =>
    rw [Task.own,stated_of_parse hp]
    exact .line s l (ih trivial hs hx)
  | next h _ ih ih' | text _ h _ ih ih' =>
    exact (ih trivial hs nofun).append Halt.not_ends_none
      (ih' trivial (h.level.config ▸ hs) hx)
  | stopped h hp ih =>
    have hne := fun he => hx (congrArg Except.error he)
    exact (ih trivial hs (ne_cut_of_error hx)).leave
      (ends_of_not_passes (h.level.config ▸ hs) hp hne) _
  | space _ ih | verbatim _ ih => exact ih trivial hs hx
  | textFailed _ _ ih => exact ih trivial hs (ne_cut_of_error hx)
  | reported h hp hw _ ih ih' =>
    exact (ih trivial hs nofun).append (not_ends_of_passes hp)
      (.cons rfl rfl (ih' trivial (h.level.config ▸ hs) hx))
  | @unreported last st rest s τ e s' io h hp hw ih =>
    have hstatement := ih trivial hs nofun
    exact (hstatement.append (not_ends_of_passes hp) (.raised s' _)).leave ⟨_,rfl,rfl⟩ _
  | @unexpanded st s τ x s' _ ih =>
    exact .statement s st (ih trivial hs (ne_cut_of_error hx))
  | @blank st s τ a s' _ _ ih => exact .statement s st (ih trivial hs nofun)
  | @called st s τ a s' path args τ' o s'' h _ _ ih ih' =>
    rw [Halt.of?_map]
    exact (Leveled.statement s st (ih trivial hs nofun)).append Halt.not_ends_none
      (ih' trivial (h.level.config ▸ hs) (ne_cut_of_map hx))
  | literal _ ih | parameter _ _ ih | captured _ ih =>
    rw [Halt.of?_map]
    exact ih trivial hs (ne_cut_of_map hx)
  | parameterFailed | refused => exact .raised _ _
  | @replaced l rest s τ text s' τ' o s'' h _ ih ih' =>
    rw [Halt.of?_map]
    have hinside := (ih trivial hs nofun).inside (.substitution l) (List.append_nil _) id
    exact hinside.append Halt.not_ends_none
      (ih' trivial (h.level.config ▸ hs) (ne_cut_of_map hx))
  | @unreplaced l rest s τ x s' _ ih =>
    exact (ih trivial hs (ne_cut_of_carry hx)).inside (.substitution l) (List.append_nil _)
      ends_carry
  | outright => exact .cons rfl rfl .nil
  | outrightFailed h => exact .cons rfl rfl (.raised _ _)
  | aliased _ _ ih =>
    rw [Halt.of?_map]
    exact .cons rfl rfl (ih trivial hs (ne_cut_of_map hx))
  | @ran path args s p r body τ result s' _ hb h ih =>
    have hinside := (ih (hengine _ _ _ _ hb _) hs nofun).inside (.command path args) rfl id
    exact .cons rfl rfl (hinside.append Halt.not_ends_none (.cons rfl rfl .nil))
  | @ranCut path args s p r body τ x s' _ hb _ ih =>
    have hinside := (ih (hengine _ _ _ _ hb _) hs (ne_cut_of_error hx)).inside
      (.command path args) rfl id
    exact .cons rfl rfl hinside
  | @expanded name l s τ o s' _ h ih =>
    exact (ih trivial hs hx).inside (.expansion name l) (List.append_nil _) id
  | answered hd ha _ ih =>
    exact .cons rfl rfl (ih (ht.2 _) ((level_answer hd ha).config ▸ hs) hx)
  | nested hr | nestedCut hr => cases hr <;> exact ht.1.elim

end Engine
end CommandShell
