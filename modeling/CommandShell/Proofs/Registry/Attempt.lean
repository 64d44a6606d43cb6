import CommandShell.Proofs.Follow.Queue

/-! Attempts to change a registry.
An attempt is accepted and published as one event, or it is refused and nothing has happened. What
is published depends on the commands that are registered, and not on who listens. -/
namespace CommandShell

/-- A call that is to change the commands of a registry. -/
inductive Attempt (κ : Type)
  | register (d : Descriptor κ)
  | unregister (name : String)

namespace Registry

variable {κ : Type} {r r' : Registry κ} {a : Attempt κ} {e : Event κ}

/-- The event that an attempt publishes and the registry after it, or why it is refused. -/
def attempt (r : Registry κ) : Attempt κ → Except RegistryError (Event κ × Registry κ)
  | .register d => (r.register d).map fun p => (.added p.1,p.2)
  | .unregister name => (r.unregister name).map fun p => (.removed p.1.path,p.2)

def after (r : Registry κ) (a : Attempt κ) : Registry κ :=
  match r.attempt a with
  | .ok (_,r') => r'
  | .error _ => r

/-- What an attempt publishes. -/
def published (r : Registry κ) (a : Attempt κ) : List (Event κ) :=
  match r.attempt a with
  | .ok (e,_) => [e]
  | .error _ => []

/-- What a run of attempts publishes, in order: one event for each that is accepted. -/
def log (r : Registry κ) : List (Attempt κ) → List (Event κ)
  | [] => []
  | a :: attempts => r.published a ++ (r.after a).log attempts

/-- An attempt changes the registry by the one event that it publishes, or not at all. -/
theorem attempt_cases (r : Registry κ) (a : Attempt κ) :
    (∃ e r', r.attempt a = .ok (e,r') ∧ r.published a = [e] ∧ r.after a = r') ∨
      (∃ f, r.attempt a = .error f) ∧ r.published a = [] ∧ r.after a = r := by
  unfold published after
  cases h : r.attempt a with
  | ok p => exact .inl ⟨p.1,p.2,rfl,rfl,rfl⟩
  | error f => exact .inr ⟨⟨f,rfl⟩,rfl,rfl⟩

theorem Sound.changes_of_attempt (h : r.Sound) (hok : r.attempt a = .ok (e,r')) :
    r.Changes e r' := by
  cases a with
  | register d =>
    simp only [attempt] at hok
    cases hr : r.register d with
    | error f => simp [hr,Except.map] at hok
    | ok p =>
      obtain ⟨rfl,rfl⟩ : Event.added p.1 = e ∧ p.2 = r' := by simpa [hr,Except.map] using hok
      exact changes_of_register h hr
  | unregister name =>
    simp only [attempt] at hok
    cases hr : r.unregister name with
    | error f => simp [hr,Except.map] at hok
    | ok p =>
      obtain ⟨rfl,rfl⟩ : Event.removed p.1.path = e ∧ p.2 = r' := by
        simpa [hr,Except.map] using hok
      exact changes_of_unregister h hr

theorem Sound.after (h : r.Sound) (a : Attempt κ) : (r.after a).Sound := by
  rcases r.attempt_cases a with ⟨e,r',hok,-,ha⟩ | ⟨-,-,ha⟩ <;> rw [ha]
  · exact (h.changes_of_attempt hok).sound
  · exact h

theorem Sound.registered_after (h : r.Sound) (a : Attempt κ) :
    Event.FitAll r.registered (r.published a) ∧
      (r.after a).registered = (r.published a).foldl Event.on r.registered := by
  rcases r.attempt_cases a with ⟨e,r',hok,hp,ha⟩ | ⟨-,hp,ha⟩ <;> rw [hp,ha]
  · have hc := h.changes_of_attempt hok
    exact ⟨⟨hc.fits,trivial⟩,hc.registered⟩
  · exact ⟨trivial,rfl⟩

def Numbered (r : Registry κ) : Prop := ∀ c ∈ r.registered, c.serial < r.nextSerial

theorem serial_of_register {c : Registered κ} {d : Descriptor κ}
    (hok : r.register d = .ok (c,r')) :
    c = ⟨r.nextSerial,d⟩ ∧ r'.nextSerial = r.nextSerial + 1 := by
  unfold register at hok
  simp only at hok
  split_ifs at hok
  split at hok
  · cases hok
  · obtain ⟨rfl,rfl⟩ := Prod.mk.inj (Except.ok.inj hok)
    exact ⟨rfl,rfl⟩

theorem nextSerial_of_unregister {c : Registered κ} {name : String}
    (hok : r.unregister name = .ok (c,r')) : r'.nextSerial = r.nextSerial := by
  unfold unregister at hok
  split at hok
  · cases hok
  · split at hok
    · cases hok
    · obtain ⟨rfl,rfl⟩ := Prod.mk.inj (Except.ok.inj hok)
      rfl

theorem Sound.numbered_after (h : r.Sound) (hn : r.Numbered) (a : Attempt κ) :
    (r.after a).Numbered := by
  cases a with
  | register d =>
    cases hok : r.register d with
    | error f => simpa [Registry.after,attempt,hok,Except.map] using hn
    | ok p =>
      have hafter : r.after (.register d) = p.2 := by simp [Registry.after,attempt,hok,Except.map]
      obtain ⟨hc,hserial⟩ := serial_of_register hok
      intro c hm
      rw [hafter,(changes_of_register h hok).registered] at hm
      rw [hafter,hserial]
      rcases hm with rfl | hm
      · rw [hc]
        exact Nat.lt_succ_self _
      · exact (hn c hm).trans (Nat.lt_succ_self _)
  | unregister name =>
    cases hok : r.unregister name with
    | error f => simpa [Registry.after,attempt,hok,Except.map] using hn
    | ok p =>
      have hafter : r.after (.unregister name) = p.2 := by
        simp [Registry.after,attempt,hok,Except.map]
      intro c hm
      rw [hafter,(changes_of_unregister h hok).registered] at hm
      rw [hafter,nextSerial_of_unregister hok]
      exact hn c hm.1

structure Agree (r r' : Registry κ) : Prop where
  commands : r'.commands = r.commands
  nextSerial : r'.nextSerial = r.nextSerial

theorem Agree.refl (r : Registry κ) : r.Agree r := ⟨rfl,rfl⟩

theorem Agree.trans {r'' : Registry κ} (h : r.Agree r') (h' : r'.Agree r'') : r.Agree r'' :=
  ⟨h'.commands.trans h.commands,h'.nextSerial.trans h.nextSerial⟩

theorem Agree.register (h : r.Agree r') (d : Descriptor κ) :
    (∃ f, r.register d = .error f ∧ r'.register d = .error f) ∨
      ∃ c s s', r.register d = .ok (c,s) ∧ r'.register d = .ok (c,s') ∧ s.Agree s' := by
  have hconflict : r'.conflict? d.name = r.conflict? d.name := by
    simp [conflict?,h.commands]
  simp only [Registry.register,h.commands,h.nextSerial,hconflict]
  split_ifs
  · exact .inl ⟨_,rfl,rfl⟩
  · exact .inl ⟨_,rfl,rfl⟩
  · cases r.conflict? d.name with
    | some existing => exact .inl ⟨_,rfl,rfl⟩
    | none => exact .inr ⟨_,_,_,rfl,rfl,rfl,rfl⟩

theorem Agree.unregister (h : r.Agree r') (name : String) :
    (∃ f, r.unregister name = .error f ∧ r'.unregister name = .error f) ∨
      ∃ c s s', r.unregister name = .ok (c,s) ∧ r'.unregister name = .ok (c,s') ∧ s.Agree s' := by
  simp only [Registry.unregister,h.commands]
  cases canonical? name with
  | none => exact .inl ⟨_,rfl,rfl⟩
  | some key =>
    cases hk : r.commands[key]? with
    | none => simp [hk]
    | some c =>
      simp only [hk]
      exact .inr ⟨_,_,_,rfl,rfl,rfl,h.nextSerial⟩

theorem Agree.attempt (h : r.Agree r') (a : Attempt κ) :
    r'.published a = r.published a ∧ (r.after a).Agree (r'.after a) := by
  cases a with
  | register d =>
    rcases h.register d with ⟨f,h1,h2⟩ | ⟨c,s,s',h1,h2,hs⟩
    · simpa [published,after,Registry.attempt,h1,h2,Except.map] using h
    · simpa [published,after,Registry.attempt,h1,h2,Except.map] using hs
  | unregister name =>
    rcases h.unregister name with ⟨f,h1,h2⟩ | ⟨c,s,s',h1,h2,hs⟩
    · simpa [published,after,Registry.attempt,h1,h2,Except.map] using h
    · simpa [published,after,Registry.attempt,h1,h2,Except.map] using hs

theorem Agree.log (h : r.Agree r') (attempts : List (Attempt κ)) :
    r'.log attempts = r.log attempts := by
  induction attempts generalizing r r' with
  | nil => rfl
  | cons a attempts ih =>
    obtain ⟨hp,ha⟩ := h.attempt a
    rw [Registry.log,Registry.log,hp,ih ha]

end Registry
end CommandShell
