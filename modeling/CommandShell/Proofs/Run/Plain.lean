import CommandShell.Builtin
import CommandShell.Proofs.Run.Course

/-! What commands ask for and how they fail.
The built-in commands are all of one kind: they write to the output and ask for variables, aliases
and what is registered, but never for a line or a command to be run, and they pass on no error but
one that only fails their statement. -/
namespace CommandShell

variable {κ α β : Type}

/-- What a program may ask for, the answers that it may get, and how it may fail. -/
structure Manner (κ : Type) where
  asks : Request κ → Prop
  hears : (r : Request κ) → r.Answer → Prop
  fails : Failure → Prop

/-- The session answers the request without running anything, and writes no error for it. -/
def Request.Modest : Request κ → Prop
  | write .output _ | environment | setEnvironment _ | aliases | resolve _ | tree | commands => True
  | _ => False

def Failure.Simple (f : Failure) : Prop := ∀ e, f.origin = .shell e → e.isRecoverable = true

/-- Modest requests and simple failures are in this manner, and so is to fail as a name does that
stands for nothing. Aliases may be changed by one, if its name is valid. -/
structure Manner.Suits (m : Manner κ) : Prop where
  asks : ∀ r : Request κ, r.Modest → m.asks r
  defines : ∀ {t : AliasTable} {name} text, m.hears .aliases t → Segment.isValid name = true →
    m.asks (.setAliases (t.define name text))
  removes : ∀ {t : AliasTable} name, m.hears .aliases t → m.asks (.setAliases (t.remove name))
  fails : ∀ f : Failure, f.Simple → m.fails f
  unresolved : ∀ name e, m.hears (.resolve name) (.error e) → m.fails (.shell e)

namespace Program

def Direct : Program κ α → Prop
  | done _ | fail _ => True
  | ask r next => r.Direct ∧ ∀ a, (next a).Direct

/-- The program keeps to the manner as long as its answers do. -/
def Keeps (m : Manner κ) : Program κ α → Prop
  | done _ => True
  | fail f => m.fails f
  | ask r next => m.asks r ∧ ∀ a, m.hears r a → (next a).Keeps m

variable {m : Manner κ}

theorem Keeps.bind {p : Program κ α} {k : α → Program κ β} (hp : p.Keeps m)
    (hk : ∀ a, (k a).Keeps m) : (p >>= k).Keeps m := by
  induction p with
  | done a => exact hk a
  | fail f => exact hp
  | ask r next ih => exact ⟨hp.1,fun a ha => ih a (hp.2 a ha)⟩

theorem keeps_ofExcept {ε : Type} {failure : ε → Failure} {o : Except ε α}
    (h : ∀ e, o = .error e → m.fails (failure e)) : (ofExcept failure o).Keeps m := by
  cases o with
  | ok a => trivial
  | error e => exact h e rfl

variable (hm : m.Suits)

include hm

theorem keeps_fail {f : Failure} (hf : ∀ e, f.origin ≠ .shell e) :
    (fail f : Program κ α).Keeps m := hm.fails f fun e he => absurd he (hf e)

theorem keeps_fail_message (text : String) : (fail (.message text) : Program κ α).Keeps m :=
  keeps_fail hm nofun

theorem keeps_fail_shell {e : ShellError} (he : e.isRecoverable = true) :
    (fail (.shell e) : Program κ α).Keeps m := by
  refine hm.fails _ fun e' he' => ?_
  cases he'
  exact he

theorem keeps_write (text : String) : (write text : Program κ Unit).Keeps m :=
  ⟨hm.asks _ trivial,fun _ _ => keeps_ofExcept fun _ _ => hm.fails _ nofun⟩

theorem keeps_writeLine (text : String) : (writeLine text : Program κ Unit).Keeps m :=
  keeps_write hm _

omit hm

def direct : Manner κ := ⟨Request.Direct,fun _ _ => True,fun _ => True⟩

theorem suits_direct : (direct : Manner κ).Suits := by
  refine ⟨fun r hr => ?_,fun _ _ _ => trivial,fun _ _ => trivial,fun _ _ => trivial,
    fun _ _ _ => trivial⟩
  cases r <;> trivial

theorem Keeps.direct {p : Program κ α} (h : p.Keeps direct) : p.Direct := by
  induction p with
  | done a | fail f => trivial
  | ask r next ih => exact ⟨h.1,fun a => ih a (h.2 a trivial)⟩

theorem Direct.keeps {p : Program κ α} (h : p.Direct) : p.Keeps direct := by
  induction p with
  | done a | fail f => trivial
  | ask r next ih => exact ⟨h.1,fun a _ => ih a (h.2 a)⟩

end Program

def Command.Direct (c : Command κ) : Prop :=
  ∀ verbatim args body, c.Starts verbatim args body → ∀ i, (body i).Direct

/-- The commands are built-in ones and others that run nothing else. -/
def Engine.Plain (engine : Engine κ) : Prop :=
  ∀ a, (∃ b : Builtin, engine.command a = b.command) ∨ (engine.command a).Direct

def Task.Direct : Task κ → Prop
  | program p => p.Direct
  | _ => True

namespace Builtin

open Program

theorem exitBody_eq_fail (bound : Arguments.Bound) :
    ∃ code, (exitBody bound : Program κ Value) = .fail (.exit code) := by
  unfold exitBody
  split <;> exact ⟨_,rfl⟩

section Keeps

variable {m : Manner κ} (hm : m.Suits)

include hm

theorem keeps_listAliases (pairs : List (String × String)) :
    (listAliases pairs : Program κ Value).Keeps m := by
  induction pairs with
  | nil => trivial
  | cons pair pairs ih => exact (keeps_writeLine hm _).bind fun _ => ih

theorem keeps_listVariables (pairs : List (String × String)) :
    (listVariables pairs : Program κ Value).Keeps m := by
  induction pairs with
  | nil => trivial
  | cons pair pairs ih => exact (keeps_writeLine hm _).bind fun _ => ih

theorem keeps_helpLines (width : Nat) (rs : List (Registered κ)) :
    (helpLines width rs).Keeps m := by
  induction rs with
  | nil => trivial
  | cons r rs ih => exact (keeps_writeLine hm _).bind fun _ => ih

theorem keeps_defineAlias (name text : String) :
    (defineAlias name text : Program κ Value).Keeps m := by
  unfold defineAlias
  split
  case isTrue hv => exact ⟨hm.asks _ trivial,fun t ht => ⟨hm.defines text ht hv,fun _ _ => trivial⟩⟩
  case isFalse => exact keeps_fail_shell hm rfl

theorem keeps_aliasBody (words : List String) : (aliasBody words : Program κ Value).Keeps m := by
  unfold aliasBody
  split
  · exact ⟨hm.asks _ trivial,fun t _ => keeps_listAliases hm _⟩
  · split
    · exact keeps_defineAlias hm _ _
    · refine ⟨hm.asks _ trivial,fun t _ => ?_⟩
      dsimp only
      split
      · exact keeps_listAliases hm _
      · exact keeps_fail_shell hm rfl
    · exact keeps_defineAlias hm _ _

theorem keeps_unaliasBody (name : String) : (unaliasBody name : Program κ Value).Keeps m := by
  refine ⟨hm.asks _ trivial,fun t ht => ?_⟩
  dsimp only
  split
  · exact ⟨hm.removes name ht,fun _ _ => trivial⟩
  · exact keeps_fail_shell hm rfl

theorem keeps_setBody (bound : Arguments.Bound) : (setBody bound : Program κ Value).Keeps m := by
  unfold setBody
  split
  · exact ⟨hm.asks _ trivial,fun e _ => keeps_listVariables hm _⟩
  · exact ⟨hm.asks _ trivial,fun _ _ => ⟨hm.asks _ trivial,fun _ _ => trivial⟩⟩

theorem keeps_locateGroup (target : String) : (locateGroup target : Program κ Path).Keeps m := by
  unfold locateGroup
  split
  · exact keeps_fail hm nofun
  · refine ⟨hm.asks _ trivial,fun e _ => ⟨hm.asks _ trivial,fun t _ => ?_⟩⟩
    dsimp only
    split
    · exact keeps_fail_message hm _
    · split
      · trivial
      · exact keeps_fail_message hm _

theorem keeps_cdBody (bound : Arguments.Bound) : (cdBody bound : Program κ Value).Keeps m := by
  -- what is done with the group, from wherever it comes
  have henter : ∀ group : Path, (ask .environment fun e =>
      ask (.setEnvironment (e.setCurrentGroup group)) fun _ => done .null :
        Program κ Value).Keeps m :=
    fun group => ⟨hm.asks _ trivial,fun _ _ => ⟨hm.asks _ trivial,fun _ _ => trivial⟩⟩
  unfold cdBody
  split
  · exact henter _
  · exact henter _
  · exact (keeps_locateGroup hm _).bind henter

theorem keeps_readPattern (text : String) : (readPattern text : Program κ Pattern).Keeps m := by
  unfold readPattern
  split
  · trivial
  · exact keeps_fail hm nofun

theorem keeps_lsBody (bound : Arguments.Bound) : (lsBody bound : Program κ Value).Keeps m := by
  have hpattern : ∀ text, (some <$> readPattern text : Program κ (Option Pattern)).Keeps m :=
    fun text => (keeps_readPattern hm text).bind fun p => (trivial : (done (some p)).Keeps m)
  unfold lsBody
  dsimp only
  split
  case' h_1 =>
    refine Keeps.bind (p := done none) trivial fun pattern => ?_
  case' h_2 => refine (hpattern _).bind fun pattern => ?_
  -- with a pattern or without one, the group is found in the same two ways
  all_goals
    split
    case' h_1 => refine (keeps_locateGroup hm _).bind fun group => ⟨hm.asks _ trivial,fun t _ => ?_⟩
    case' h_2 =>
      refine ⟨hm.asks _ trivial,fun e _ => ⟨hm.asks _ trivial,fun t _ => ?_⟩⟩
    all_goals
      dsimp only
      split
      · exact keeps_fail_message hm _
      · trivial

theorem keeps_body (b : Builtin) (bound : Arguments.Bound) :
    (b.body bound : Program κ Value).Keeps m := by
  cases b with
  | echo => exact (keeps_write hm _).bind fun _ => trivial
  | exit =>
    obtain ⟨code,hcode⟩ := @exitBody_eq_fail κ bound
    rw [body,hcode]
    exact keeps_fail hm nofun
  | aliases => exact keeps_aliasBody hm _
  | unalias => exact keeps_unaliasBody hm _
  | set => exact keeps_setBody hm _
  | unset => exact ⟨hm.asks _ trivial,fun _ _ => ⟨hm.asks _ trivial,fun _ _ => trivial⟩⟩
  | cd => exact keeps_cdBody hm _
  | pwd => exact ⟨hm.asks _ trivial,fun _ _ => trivial⟩
  | ls => exact keeps_lsBody hm _
  | which =>
    have hresolve : (ask (.resolve (bound.words.headD "")) (ofExcept .shell) :
        Program κ (Resolution κ)).Keeps m := by
      refine ⟨hm.asks _ trivial,fun a ha => keeps_ofExcept fun e he => ?_⟩
      exact hm.unresolved _ e (he ▸ ha)
    exact hresolve.bind fun _ => trivial
  | help => exact ⟨hm.asks _ trivial,fun _ _ => keeps_helpLines hm _ _⟩

end Keeps

theorem body_of_starts {b : Builtin} {verbatim : Bool} {args : List String}
    {body : Invocation → Program κ Value} (h : (b.command : Command κ).Starts verbatim args body)
    (i : Invocation) : ∃ bound, body i = b.body bound := by
  cases h with
  | verbatim => exact ⟨_,rfl⟩
  | bound _ hb =>
    simp only [command,Builtin.bind] at hb
    split at hb
    · cases hb
    · obtain ⟨⟨rfl⟩⟩ := hb
      exact ⟨_,rfl⟩
    · cases hb

theorem keeps_starts {m : Manner κ} (hm : m.Suits) {b : Builtin} {verbatim : Bool}
    {args : List String} {body : Invocation → Program κ Value}
    (h : (b.command : Command κ).Starts verbatim args body) (i : Invocation) :
    (body i).Keeps m := by
  obtain ⟨bound,hbody⟩ := body_of_starts h i
  exact hbody ▸ keeps_body hm b bound

theorem direct_command (b : Builtin) : (b.command : Command κ).Direct :=
  fun _ _ _ h i => (keeps_starts suits_direct h i).direct

end Builtin

theorem Engine.Plain.direct {engine : Engine κ} (h : engine.Plain) (a : κ) :
    (engine.command a).Direct := by
  obtain ⟨b,hb⟩ | ha := h a
  · exact hb ▸ b.direct_command
  · exact ha

end CommandShell
