import CommandShell.Host
import CommandShell.Proofs.Run.Elsewhere
import CommandShell.Proofs.Run.Policy
import CommandShell.Proofs.Run.Termination

/-! Sessions side by side.
However the lines of several sessions on one kernel of built-in commands alternate, each session
does what it does with its own lines alone, and the kernel shows the same after as before. -/
namespace CommandShell

variable {κ : Type}

/-- What is done next on a host, and for a line what came of it. -/
inductive Turn
  | opened (s : Session)
  | forked (n : Nat) (console : Console)
  | line (n : Nat) (text : String) (answer : Except ShellError (Option Value))

namespace Host

variable {h : Host κ} {n : Nat} {s : Session}

theorem session?_join (hs : h.session? n = some s) (other : Session) :
    (h.join other).session? n = some s := by
  obtain ⟨hn,hs⟩ := List.getElem?_eq_some_iff.1 hs
  simp only [session?,join,List.getElem?_append_left hn,List.getElem?_eq_getElem hn,hs]

theorem session?_join_length (h : Host κ) (s : Session) :
    (h.join s).session? h.sessions.length = some s := by
  simp [session?,join]

end Host

namespace Turn

/-- The turn as it is asked for, with nothing said of its answer. -/
def asked : Turn → Turn
  | line n text _ => line n text (.ok none)
  | turn => turn

/-- The lines of one session, as those of the only one there is. -/
def own (n : Nat) (turns : List Turn) : List Turn :=
  turns.filterMap fun
    | line m text answer => if m = n then some (line 0 text answer) else none
    | _ => none

def begins? (h : Host κ) : Turn → Option Session
  | opened s => some s
  | forked n console => (h.session? n).map (·.fork console)
  | line _ _ _ => none

end Turn

namespace Engine

/-- The line comes to the answer in this session. -/
def Executes (engine : Engine κ) (h : Host κ) (n : Nat) (text : String)
    (answer : Except ShellError (Option Value)) (h' : Host κ) : Prop :=
  ∃ depth, h.run n ((engine.reentry depth).execute text).run = some (answer,h')

/-- The turns lead from one host to another. -/
inductive Hosts (engine : Engine κ) : Host κ → List Turn → Host κ → Prop
  | nil {h} : Hosts engine h [] h
  | opened {h s turns h'} (ht : Hosts engine (h.join s) turns h') :
      Hosts engine h (.opened s :: turns) h'
  | forked {h n console g turns h'} (hf : h.fork n console = some g)
      (ht : Hosts engine g turns h') : Hosts engine h (.forked n console :: turns) h'
  | line {h n text answer g turns h'} (hl : engine.Executes h n text answer g)
      (ht : Hosts engine g turns h') : Hosts engine h (.line n text answer :: turns) h'

/-- By itself on this kernel the session gets these answers to these lines and comes to `final`,
and it can come to nothing else. -/
def Alone (engine : Engine κ) (k : Kernel κ) (disk : Disk) (s : Session) (turns : List Turn)
    (final : Option Session) : Prop :=
  ∃ g, engine.Hosts (.opened k disk s) turns g ∧ g.session? 0 = final ∧
    ∀ turns' g', engine.Hosts (.opened k disk s) turns' g' →
      turns'.map Turn.asked = turns.map Turn.asked → turns' = turns ∧ g' = g

variable {engine : Engine κ} {h h' g : Host κ} {k k' : Kernel κ} {disk : Disk}
  {turns before after : List Turn} {n : Nat} {s : Session}

theorem executes_iff {text : String} {answer : Except ShellError (Option Value)} :
    engine.Executes h n text answer h' ↔ ∃ s τ t, h.session? n = some s ∧
      engine.Runs (.line text) ⟨h.kernel,h.disk,s⟩ τ (answer.mapError .failed) t ∧
      h' = ⟨t.kernel,t.disk,h.sessions.set n t.session⟩ := by
  constructor
  · rintro ⟨depth,hrun⟩
    simp only [Host.run,Option.bind_eq_some_iff,Option.map_eq_some_iff] at hrun
    obtain ⟨s,hs,⟨b,t⟩,hline,he⟩ := hrun
    obtain ⟨rfl,rfl⟩ := Prod.mk.inj he
    obtain ⟨τ,hτ⟩ := exists_execute_iff_runs.1 ⟨depth,hline⟩
    exact ⟨s,τ,t,hs,hτ,rfl⟩
  · rintro ⟨s,τ,t,hs,hτ,rfl⟩
    obtain ⟨depth,hline⟩ := exists_execute_iff_runs.2 ⟨τ,hτ⟩
    refine ⟨depth,?_⟩
    simp only [Host.run,Option.bind_eq_some_iff,Option.map_eq_some_iff]
    exact ⟨s,hs,⟨answer,t⟩,hline,rfl⟩

theorem Executes.unique {text : String} {answer answer' : Except ShellError (Option Value)}
    (h₁ : engine.Executes h n text answer h') (h₂ : engine.Executes h n text answer' g) :
    answer = answer' ∧ h' = g := by
  obtain ⟨s,τ,t,hs,hτ,rfl⟩ := executes_iff.1 h₁
  obtain ⟨s',τ',t',hs',hτ',rfl⟩ := executes_iff.1 h₂
  obtain rfl := Option.some.inj (hs.symm.trans hs')
  obtain ⟨rfl,rfl⟩ := hτ.unique hτ'
  exact ⟨rfl,rfl⟩

theorem Hosts.split (ht : engine.Hosts h (before ++ after) h') :
    ∃ g, engine.Hosts h before g ∧ engine.Hosts g after h' := by
  induction before generalizing h with
  | nil => exact ⟨h,.nil,ht⟩
  | cons turn before ih =>
    cases ht with
    | opened ht =>
      obtain ⟨g,hb,ha⟩ := ih ht
      exact ⟨g,.opened hb,ha⟩
    | forked hf ht =>
      obtain ⟨g,hb,ha⟩ := ih ht
      exact ⟨g,.forked hf hb,ha⟩
    | line hl ht =>
      obtain ⟨g,hb,ha⟩ := ih ht
      exact ⟨g,.line hl hb,ha⟩

theorem Hosts.unique {turns' : List Turn} (h₁ : engine.Hosts h turns h')
    (h₂ : engine.Hosts h turns' g) (he : turns'.map Turn.asked = turns.map Turn.asked) :
    turns' = turns ∧ g = h' := by
  induction h₁ generalizing turns' with
  | nil =>
    obtain rfl := List.map_eq_nil_iff.1 he
    cases h₂
    exact ⟨rfl,rfl⟩
  | opened _ ih =>
    cases h₂ with
    | nil => cases he
    | opened ht =>
      obtain ⟨hturn,hrest⟩ := List.cons.inj he
      cases hturn
      obtain ⟨rfl,rfl⟩ := ih ht hrest
      exact ⟨rfl,rfl⟩
    | forked | line => cases (List.cons.inj he).1
  | forked hf _ ih =>
    cases h₂ with
    | nil => cases he
    | forked hf' ht =>
      obtain ⟨hturn,hrest⟩ := List.cons.inj he
      cases hturn
      obtain rfl := Option.some.inj (hf.symm.trans hf')
      obtain ⟨rfl,rfl⟩ := ih ht hrest
      exact ⟨rfl,rfl⟩
    | opened | line => cases (List.cons.inj he).1
  | line hl _ ih =>
    cases h₂ with
    | nil => cases he
    | line hl' ht =>
      obtain ⟨hturn,hrest⟩ := List.cons.inj he
      cases hturn
      obtain ⟨rfl,rfl⟩ := hl.unique hl'
      obtain ⟨rfl,rfl⟩ := ih ht hrest
      exact ⟨rfl,rfl⟩
    | opened | forked => cases (List.cons.inj he).1

theorem Hosts.begins {turn : Turn} (ht : engine.Hosts h [turn] h')
    (hs : turn.begins? h = some s) : h'.session? h.sessions.length = some s := by
  cases ht with
  | opened ht =>
    cases ht
    obtain rfl := Option.some.inj hs
    exact h.session?_join_length _
  | forked hf ht =>
    cases ht
    obtain ⟨parent,hparent,rfl⟩ := Option.map_eq_some_iff.1 hf
    rw [Turn.begins?,hparent] at hs
    obtain rfl := Option.some.inj hs
    exact h.session?_join_length _
  | line => cases hs

noncomputable def tamed (engine : Engine κ) : Engine κ where
  command a := open Classical in
    if ∃ b : Builtin, engine.command a = b.command then engine.command a else Builtin.echo.command
  launch := engine.launch

theorem onlyBuiltins_tamed (engine : Engine κ) : engine.tamed.OnlyBuiltins := by
  intro a
  by_cases ha : ∃ b : Builtin, engine.command a = b.command
  · obtain ⟨b,hb⟩ := ha
    exact ⟨b,(if_pos ⟨b,hb⟩).trans hb⟩
  · exact ⟨.echo,if_neg ha⟩

section Homely

variable (hhome : k.Homely engine)
include hhome

/-- On a kernel of built-in commands every line comes to an answer, whatever other commands there
might be elsewhere. -/
theorem executes_of_homely (hk : k.Stands h.kernel) (hs : h.session? n = some s) (text : String) :
    ∃ answer g, engine.Executes h n text answer g := by
  have htamed : k.Homely engine.tamed := fun c _ => engine.onlyBuiltins_tamed _
  have hagree : k.Agree engine.tamed engine := fun c hc => (if_pos (hhome c hc)).symm
  have hline := finishes_line engine.onlyBuiltins_tamed.direct text ⟨h.kernel,h.disk,s⟩
  cases hline with
  | ok hτ =>
    obtain ⟨τ',k',hτ',-⟩ := hτ.elsewhere htamed hagree trivial hk hk.still h.disk
    exact ⟨.ok _,_,executes_iff.2 ⟨s,τ',_,hs,hτ',rfl⟩⟩
  | failed hτ =>
    obtain ⟨τ',k',hτ',-⟩ := hτ.elsewhere htamed hagree trivial hk hk.still h.disk
    exact ⟨.error _,_,executes_iff.2 ⟨s,τ',_,hs,hτ',rfl⟩⟩

theorem Hosts.stands (ht : engine.Hosts h turns h') (hk : k.Stands h.kernel) :
    k.Stands h'.kernel ∧ h'.disk = h.disk := by
  induction ht with
  | nil => exact ⟨hk,rfl⟩
  | opened _ ih => exact ih hk
  | forked hf _ ih =>
    obtain ⟨s,-,rfl⟩ := Option.map_eq_some_iff.1 hf
    exact ih hk
  | line hl _ ih =>
    obtain ⟨s,τ,t,-,hτ,rfl⟩ := executes_iff.1 hl
    obtain ⟨hkt,hdisk⟩ := hτ.stands hhome trivial hk
    obtain ⟨hk',hdisk'⟩ := ih hkt
    exact ⟨hk',hdisk'.trans hdisk⟩

/-- A session goes on as it does by itself with its own lines. -/
theorem Hosts.alone (ht : engine.Hosts h turns h') (hk : k.Stands h.kernel)
    (hs : h.session? n = some s) (hk' : k.Still k') (disk : Disk) :
    ∃ g, engine.Hosts (.opened k' disk s) (Turn.own n turns) g ∧
      g.session? 0 = h'.session? n := by
  induction ht generalizing s k' with
  | nil => exact ⟨.opened k' disk s,.nil,hs.symm⟩
  | opened _ ih => exact ih hk (Host.session?_join hs _) hk'
  | forked hf _ ih =>
    obtain ⟨parent,-,rfl⟩ := Option.map_eq_some_iff.1 hf
    exact ih hk (Host.session?_join hs _) hk'
  | @line h m text answer g turns h' hl _ ih =>
    obtain ⟨s₁,τ,t,hs₁,hτ,rfl⟩ := executes_iff.1 hl
    have hkt := (hτ.stands hhome trivial hk).1
    by_cases hm : m = n
    · subst hm
      obtain rfl := Option.some.inj (hs.symm.trans hs₁)
      obtain ⟨τ',k'',hτ',hk''⟩ := hτ.elsewhere hhome (fun _ _ => rfl) trivial hk hk' disk
      have hset : (⟨t.kernel,t.disk,h.sessions.set m t.session⟩ : Host κ).session? m =
          some t.session := by
        obtain ⟨hm,-⟩ := List.getElem?_eq_some_iff.1 hs
        simp [Host.session?,hm]
      obtain ⟨g,hg,hfinal⟩ := ih hkt hset hk''
      have hline : engine.Executes (.opened k' disk s) 0 text answer
          (.opened k'' disk t.session) := executes_iff.2 ⟨s,τ',_,rfl,hτ',rfl⟩
      refine ⟨g,?_,hfinal⟩
      simpa [Turn.own] using Hosts.line hline hg
    · have hset : (⟨t.kernel,t.disk,h.sessions.set m t.session⟩ : Host κ).session? n = some s := by
        rw [← hs]
        exact List.getElem?_set_ne hm
      simpa [Turn.own,hm] using ih hkt hset hk'

end Homely

/-- What comes of the turns on a host that began without sessions on this kernel and disk. -/
structure Apart (engine : Engine κ) (k : Kernel κ) (disk : Disk) (turns : List Turn)
    (h' : Host κ) : Prop where
  /-- The same commands are registered, and the tree shows the same. -/
  kernel : k.Still h'.kernel
  completions : ∀ start, (h'.kernel.complete start).1 = (k.complete start).1
  files : h'.disk = disk
  /-- Every line that may come next comes to an answer. -/
  executes : ∀ n text, (h'.session? n).isSome → ∃ answer g, engine.Executes h' n text answer g
  /-- From every time on, each session does what it does by itself. -/
  alone : ∀ before after, turns = before ++ after → ∃ h, engine.Hosts ⟨k,disk,[]⟩ before h ∧
    engine.Hosts h after h' ∧ ∀ n s, h.session? n = some s →
      engine.Alone k disk s (Turn.own n after) (h'.session? n)
  /-- So it does from its beginning on, and a fork begins as a copy. -/
  begins : ∀ before turn after, turns = before ++ turn :: after →
    ∃ h, engine.Hosts ⟨k,disk,[]⟩ before h ∧ ∀ s, turn.begins? h = some s →
      engine.Alone k disk s (Turn.own h.sessions.length after) (h'.session? h.sessions.length)

/-- Where all commands that are registered are built-in ones, the sessions on a kernel do not
interfere: whatever is opened and forked, and however the lines of all sessions alternate, the
answers to the lines of each one and all that it becomes, its streams, variables, aliases and
current group among it, are those of these lines alone; and no line changes what is registered,
shown or completed. -/
theorem sessions_do_not_interfere (history : List (Kernel.Call κ))
    (hhome : (Kernel.empty.run history).Homely engine) (disk : Disk) (turns : List Turn)
    (h' : Host κ) (ht : engine.Hosts ⟨Kernel.empty.run history,disk,[]⟩ turns h') :
    engine.Apart (Kernel.empty.run history) disk turns h' := by
  have hgood : (Kernel.empty.run history).hub.Good := Kernel.good_run history Kernel.good_empty
  generalize Kernel.empty.run history = k at ht hhome hgood ⊢
  have hstart : k.Stands k := Kernel.stands_self hgood
  obtain ⟨hk,hdisk⟩ := ht.stands hhome hstart
  have halone : ∀ before after, turns = before ++ after → ∃ h, engine.Hosts ⟨k,disk,[]⟩ before h ∧
      engine.Hosts h after h' ∧ ∀ n s, h.session? n = some s →
        engine.Alone k disk s (Turn.own n after) (h'.session? n) := by
    rintro before after rfl
    obtain ⟨h,hb,ha⟩ := ht.split
    refine ⟨h,hb,ha,fun n s hs => ?_⟩
    obtain ⟨hmid,-⟩ := hb.stands hhome hstart
    obtain ⟨g,hg,hfinal⟩ := ha.alone hhome hmid hs hstart.still disk
    exact ⟨g,hg,hfinal,fun turns' g' hg' he => hg.unique hg' he⟩
  refine ⟨hk.still,fun start => hk.still.complete hgood start,hdisk,fun n text hn => ?_,halone,?_⟩
  · obtain ⟨s,hs⟩ := Option.isSome_iff_exists.1 hn
    exact executes_of_homely hhome hk hs text
  · rintro before turn after rfl
    obtain ⟨h₂,hb,-,hown⟩ := halone (before ++ [turn]) after (by simp)
    obtain ⟨h,hb,hturn⟩ := hb.split
    exact ⟨h,hb,fun s hs => hown _ s (hturn.begins hs)⟩

def among (h : Host Builtin) (n : Nat) (text : String) :
    Option (Except ShellError (Option Value) × Host Builtin) :=
  h.run n ((ofBuiltins.reentry 20).execute text).run

/-- A session is forked after its first line, and goes on after the first line of the fork. -/
def parting : Option (List (Except ShellError (Option Value)) × Host Builtin) := do
  let (first,h) ← among (.opened (.withBuiltins id) .empty (.opened (.opened []))) 0
    "set X 1; alias k echo"
  let h ← h.fork 0 (.opened [])
  let (second,h) ← among h 1 "set X 2; unalias k"
  let (third,h) ← among h 0 "k $X"
  return ([first,second,third],h)

/-- The variable and the alias of the first session are still its own. -/
theorem sessions_do_not_interfere_parting :
    ∃ first second third h', parting = some ([first,second,third],h') ∧
      ofBuiltins.Apart (.withBuiltins id) .empty
        [.opened (.opened (.opened [])),.line 0 "set X 1; alias k echo" first,
          .forked 0 (.opened []),.line 1 "set X 2; unalias k" second,.line 0 "k $X" third] h' ∧
      h'.sessions.map (fun s => (s.environment.get? "X",s.aliases.get? "k",s.console.output)) =
        [(some "1",some "echo",Text.encode "1\n"),(some "2",none,[])] := by
  have hend : parting.map (fun r => r.2.sessions.map fun s =>
        (s.environment.get? "X",s.aliases.get? "k",s.console.output)) =
      some [(some "1",some "echo",Text.encode "1\n"),(some "2",none,[])] := by decide +kernel
  obtain ⟨⟨answers,h'⟩,hparting,hs⟩ := Option.map_eq_some_iff.1 hend
  have hturns := hparting
  simp only [parting,Option.bind_eq_bind,Option.bind_eq_some_iff] at hturns
  obtain ⟨⟨first,h₁⟩,hfirst,h₂,hfork,⟨second,h₃⟩,hsecond,⟨third,h₄⟩,hthird,hlast⟩ := hturns
  obtain ⟨rfl,rfl⟩ := Prod.mk.inj (Option.some.inj hlast)
  refine ⟨first,second,third,h₄,hparting,?_,hs⟩
  rw [Kernel.withBuiltins_eq_run] at hfirst ⊢
  exact sessions_do_not_interfere _ (fun c _ => ⟨c.descriptor.action,rfl⟩) _ _ _
    (.opened (.line ⟨20,hfirst⟩ (.forked hfork (.line ⟨20,hsecond⟩ (.line ⟨20,hthird⟩ .nil)))))

end Engine
end CommandShell
