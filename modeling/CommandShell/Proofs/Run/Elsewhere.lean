import CommandShell.Proofs.Lookup.Resolution
import CommandShell.Proofs.Run.Matching

/-! The same session on another kernel.
Commands that change nothing but the session learn of the kernel only what is registered and what
the tree shows, so on a kernel with the same to show the session takes the same course. -/
namespace CommandShell

variable {κ : Type}

def Shell.on (s : Shell κ) (k : Kernel κ) (disk : Disk) : Shell κ := ⟨k,disk,s.session⟩

theorem Shell.resolve_on (s : Shell κ) {k k' : Kernel κ} (disk : Disk) (hs : k.Still s.kernel)
    (hk : k.Still k') (path : String) : (s.on k' disk).resolve path = s.resolve path := by
  rw [Shell.resolve,Shell.resolve,hs.tree,← hk.tree]
  rfl

theorem Shell.registered_of_resolve {k : Kernel κ} {s : Shell κ} (hs : k.Stands s.kernel)
    {path : String} {p : Path} {c : Registered κ} (h : s.resolve path = .ok (.command p c)) :
    c ∈ k.registry.registered := by
  have hget := (Kernel.resolves hs.good s.session path).command p c h
  rw [← hs.still.registered]
  exact ((hs.good.sound.get?_eq_some_iff _ c).1 hget.1).1

namespace Kernel

def Homely (engine : Engine κ) (k : Kernel κ) : Prop :=
  ∀ c ∈ k.registry.registered, ∃ b : Builtin, engine.command c.descriptor.action = b.command

def Agree (engine engine' : Engine κ) (k : Kernel κ) : Prop :=
  ∀ c ∈ k.registry.registered,
    engine'.command c.descriptor.action = engine.command c.descriptor.action

theorem Homely.keeps {engine : Engine κ} {k : Kernel κ} (hk : k.Homely engine) {c : Registered κ}
    (hc : c ∈ k.registry.registered) {m : Manner κ} (hm : m.Suits) :
    (engine.command c.descriptor.action).Keeps m := by
  obtain ⟨b,hb⟩ := hk c hc
  exact hb ▸ b.keeps_command hm

end Kernel

namespace Engine

variable {engine engine' : Engine κ} {s s' : Shell κ} {k k' : Kernel κ} {disk : Disk}

theorem answer_on {inner inner' : Reentry κ} {r : Request κ} (hr : r.Mild) {a : r.Answer}
    (h : engine.answer inner r s = some (a,s')) (hs : k.Still s.kernel) (hk : k.Still k') :
    ∃ k'', engine'.answer inner' r (s.on k' disk) = some (a,s'.on k'' disk) ∧ k.Still k'' := by
  rcases hr with hr | ⟨t,rfl⟩
  · cases r with
    | write channel bytes =>
      refine ⟨k',?_,hk⟩
      simp only [answer,Act.write] at h ⊢
      have hconsole : (s.on k' disk).session.console = s.session.console := rfl
      rw [hconsole]
      split at h <;> obtain ⟨rfl,rfl⟩ := Prod.mk.inj (Option.some.inj h) <;> rfl
    | environment | setEnvironment | aliases =>
      obtain ⟨rfl,rfl⟩ := Prod.mk.inj (Option.some.inj h)
      exact ⟨k',rfl,hk⟩
    | commands =>
      obtain ⟨rfl,rfl⟩ := Prod.mk.inj (Option.some.inj h)
      refine ⟨k',?_,hk⟩
      rw [hs.toList,← hk.toList]
      rfl
    | resolve name =>
      obtain ⟨rfl,rfl⟩ := Prod.mk.inj (Option.some.inj h)
      refine ⟨k'.synced,(resolve_run name (s.on k' disk)).trans ?_,hk.synced⟩
      rw [s.resolve_on disk hs hk name]
      rfl
    | tree =>
      obtain ⟨rfl,rfl⟩ := Prod.mk.inj (Option.some.inj h)
      refine ⟨k'.synced,?_,hk.synced⟩
      rw [hs.tree,← hk.tree]
      rfl
    | _ => exact hr.elim
  · obtain ⟨rfl,rfl⟩ := Prod.mk.inj (Option.some.inj h)
    exact ⟨k',rfl,hk⟩

theorem preserves_stands (engine : Engine κ) (k : Kernel κ) (disk : Disk) :
    engine.Preserves Program.mild fun s => k.Stands s.kernel ∧ s.disk = disk where
  direct hr := hr.direct
  answer hr hs h := ⟨trivial,stands_answer hr h hs.1,(kernel_answer hr h).2.trans hs.2⟩
  synced hs := ⟨hs.1.synced,hs.2⟩
  rerouted _ _ hs := hs

theorem Runs.stands {t : Task κ} {x : Except Halt t.Yield} {τ : List (Moment κ)}
    (hk : k.Homely engine) (h : engine.Runs t s τ x s') (ht : t.Keeps Program.mild)
    (hs : k.Stands s.kernel) : k.Stands s'.kernel ∧ s'.disk = s.disk := by
  refine (engine.preserves_stands k s.disk).runs h (fun y _ hy path args p r _ hr => ?_) ht ⟨hs,rfl⟩
  exact hk.keeps (Shell.registered_of_resolve hy.1 hr) Program.suits_mild

/-- The second shell has the same session, on a kernel that shows the same. -/
def Elsewhere (k : Kernel κ) (disk : Disk) (s u : Shell κ) : Prop :=
  k.Stands s.kernel ∧ ∃ k', k.Still k' ∧ u = s.on k' disk

theorem matches_elsewhere (hhome : k.Homely engine) (hagree : k.Agree engine engine')
    (disk : Disk) : engine.Matches engine' Program.mild (Elsewhere k disk) where
  twin := by
    rintro s _ ⟨hs,k',hk,rfl⟩
    exact ⟨rfl,rfl,rfl,rfl,rfl,s.resolve_on disk hs.still hk⟩
  driven := by
    rintro s _ console depth ⟨hs,k',hk,rfl⟩
    exact ⟨hs,k',hk,rfl⟩
  synced := by
    rintro s _ ⟨hs,k',hk,rfl⟩
    exact ⟨hs.synced,k'.synced,hk.synced,rfl⟩
  command hu hr :=
    have hc := Shell.registered_of_resolve hu.1 hr
    ⟨hagree _ hc,hhome.keeps hc Program.suits_mild⟩
  direct hr := hr.direct
  answer := by
    rintro r s _ s' a hr ⟨hs,k',hk,rfl⟩ ha
    obtain ⟨k'',ha',hk''⟩ := answer_on hr ha hs.still hk
    exact ⟨trivial,_,ha',stands_answer hr ha hs,k'',hk'',rfl⟩

/-- The course that a session takes on a kernel of built-in commands, it takes on every kernel with
the same to show, where these commands do the same. -/
theorem Runs.elsewhere {t : Task κ} {x : Except Halt t.Yield} {τ : List (Moment κ)}
    (hhome : k.Homely engine) (hagree : k.Agree engine engine') (h : engine.Runs t s τ x s')
    (ht : t.Keeps Program.mild) (hs : k.Stands s.kernel) (hk : k.Still k') (disk : Disk) :
    ∃ τ' k'', engine'.Runs t (s.on k' disk) τ' x (s'.on k'' disk) ∧ k.Still k'' := by
  have hsame : SamePolicy (Elsewhere k disk) := by
    rintro s _ ⟨-,k',-,rfl⟩
    rfl
  obtain ⟨τ',_,hτ',-,k'',hk'',rfl⟩ :=
    (matches_elsewhere hhome hagree disk).runs h ht (.inl hsame) _ ⟨hs,k',hk,rfl⟩
  exact ⟨τ',k'',hτ',hk''⟩

end Engine
end CommandShell
