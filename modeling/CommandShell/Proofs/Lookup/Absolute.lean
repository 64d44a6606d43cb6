import CommandShell.Proofs.Lookup.Resolution
import CommandShell.Proofs.Lookup.Typed
import CommandShell.Proofs.Run.Policy
import CommandShell.Proofs.Run.Steady

/-! Absolute names as the way out of a broken session.
The built-in commands give aliases valid names only, in which no slash occurs, so no alias comes
before an absolute name; and such a name is looked up from the root, past the current group and the
search path. -/
namespace CommandShell

variable {κ : Type}

/-- All aliases have valid names. -/
def AliasTable.Proper (t : AliasTable) : Prop :=
  ∀ name text, t.get? name = some text → Segment.isValid name = true

namespace AliasTable

theorem Proper.define {t : AliasTable} (ht : t.Proper) {name : String} (text : String)
    (hn : Segment.isValid name = true) : (t.define name text).Proper := by
  intro other text' h
  rw [get?_define] at h
  split_ifs at h with he
  · exact he ▸ hn
  · exact ht other text' h

theorem Proper.remove {t : AliasTable} (ht : t.Proper) (name : String) :
    (t.remove name).Proper := by
  intro other text h
  rw [get?_remove] at h
  split_ifs at h
  exact ht other text h

end AliasTable

namespace Program

end Program

namespace Engine

variable {engine : Engine κ} {s s' : Shell κ} {k : Kernel κ}

end Engine

def Moment.Homely (engine : Engine κ) (x : Moment κ) : Prop :=
  ∀ path args p r, x.what = .call path args → x.shell.resolve path = .ok (.command p r) →
    ∃ b : Builtin, engine.command r.descriptor.action = b.command

theorem Moment.Homely.keeps {engine : Engine κ} {x : Moment κ} (h : x.Homely engine)
    {m : Manner κ} (hm : m.Suits) : x.Keeps engine m := by
  intro path args p r hcall hr
  obtain ⟨b,hb⟩ := h path args p r hcall hr
  exact hb ▸ b.keeps_command hm

theorem ShellAct.bind_run_of_ok {α β : Type} {x : ShellAct κ α} {f : α → ShellAct κ β}
    {s t : Shell κ} {a : α} (h : x.run s = some (.ok a,t)) : (x >>= f).run s = (f a).run t := by
  rw [ExceptT.run_bind]
  change (x.run s).bind _ = _
  rw [h]
  rfl

namespace Engine

variable {engine : Engine κ} {s s' : Shell κ}

/-- The words of the statement, if all that is run on the way to them are built-in commands. -/
def Yields (engine : Engine κ) (n : Nat) (st : Statement) (s : Shell κ) (words : List String)
    (s' : Shell κ) : Prop :=
  ((engine.reentry n).expand st).run s = some (.ok words,s') ∧
    ∃ τ a, engine.Runs (.fragments ⟨[],""⟩ st.fragments) s τ (.ok a) s' ∧
      ∀ y ∈ τ, y.Homely engine

/-- The name of the command leads to it, whatever has become of aliases and variables. -/
structure Reaches (engine : Engine κ) (s : Shell κ) (c : Registered κ) : Prop where
  found : s.resolve c.path.text = .ok (.command c.path c)
  /-- A statement whose first word is the name runs the command on the other words. -/
  dispatched : ∀ n st args s', engine.Yields n st s (c.path.text :: args) s' →
    (engine.runStatement (engine.reentry n) st).run s =
      (some <$> engine.runCommand (engine.reentry n) c.descriptor c.path.text args).run s'.synced
  /-- Where a line begins with the name, this is the first word of its first statement. -/
  typed : ∀ rest l, Line.EndsWord rest → Line.parse (c.path.text ++ rest) = .ok l →
    ∃ st others, l.statements = st :: others ∧ ∀ (inner : Reentry κ) t words t',
      (inner.expand st).run t = some (.ok words,t') → ∃ args, words = c.path.text :: args

end Engine
end CommandShell
