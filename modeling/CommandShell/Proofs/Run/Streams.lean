import CommandShell.Proofs.Run.Reached

/-! Where what is written in a course goes.
Output is added to the capture of the innermost substitution around, to nothing else, and is never
refused there. Between two moments captures end and begin, but none is touched that was there
before the course. -/
namespace CommandShell

variable {κ : Type}

def Channel.only (target : Channel) (bytes : Bytes) (channel : Channel) : Bytes :=
  if channel = target then bytes else []

namespace Console

variable {c c' : Console} {channel : Channel} {written : Channel → Bytes} {bytes : Bytes}

/-- What arrived at the two streams of the session itself. -/
def own (c : Console) : Channel → Bytes
  | .output => c.output
  | .errors => c.errors

def passes (c : Console) (channel : Channel) : Channel → Bool
  | .output => match channel with
    | .output => c.captures.isEmpty && !c.outputClosed
    | .errors => c.merged && !c.errorsClosed
  | .errors => match channel with
    | .output => false
    | .errors => !c.merged && !c.errorsClosed

def passed (c : Console) (written : Channel → Bytes) (stream : Channel) : Bytes :=
  (if c.passes .output stream then written .output else []) ++
    if c.passes .errors stream then written .errors else []

structure Alike (c c' : Console) : Prop where
  merged : c'.merged = c.merged
  outputClosed : c'.outputClosed = c.outputClosed
  errorsClosed : c'.errorsClosed = c.errorsClosed

theorem Alike.refl (c : Console) : c.Alike c := ⟨rfl,rfl,rfl⟩

theorem Alike.trans {c'' : Console} (h : c.Alike c') (h' : c'.Alike c'') : c.Alike c'' :=
  ⟨h'.merged.trans h.merged,h'.outputClosed.trans h.outputClosed,
    h'.errorsClosed.trans h.errorsClosed⟩

/-- From the first console to the second, just this was written. -/
structure Takes (c : Console) (written : Channel → Bytes) (c' : Console) : Prop
    extends c.Alike c' where
  captures : c'.captures = c.captures.modifyHead (· ++ written .output)
  own : ∀ stream, c'.own stream = c.own stream ++ c.passed written stream

theorem takes_nothing (c : Console) (input : Bytes) :
    c.Takes (fun _ => []) { c with input := input } := by
  refine ⟨⟨rfl,rfl,rfl⟩,?_,fun stream => ?_⟩
  · cases c.captures <;> simp
  · cases stream <;> simp [own,passed]

theorem takes_write (h : c.write channel bytes = .ok c') : c.Takes (channel.only bytes) c' := by
  cases channel with
  | output =>
    cases hcaptures : c.captures with
    | cons capture outer =>
      simp only [write,hcaptures] at h
      obtain rfl := Except.ok.inj h
      refine ⟨⟨rfl,rfl,rfl⟩,by simp [hcaptures,Channel.only],fun stream => ?_⟩
      cases stream <;> simp [own,passed,passes,hcaptures,Channel.only]
    | nil =>
      simp only [write,hcaptures] at h
      split_ifs at h with hbytes hclosed <;> obtain rfl := Except.ok.inj h
      · refine ⟨⟨rfl,rfl,rfl⟩,by simp [hcaptures],fun stream => ?_⟩
        cases stream <;> simp [own,passed,hbytes,Channel.only]
      · refine ⟨⟨rfl,rfl,rfl⟩,by simp [hcaptures],fun stream => ?_⟩
        cases stream <;> simp [own,passed,passes,hcaptures,hclosed,Channel.only]
  | errors =>
    refine ⟨?_,?_,fun stream => ?_⟩
    all_goals simp only [write] at h
    · split_ifs at h <;> obtain rfl := Except.ok.inj h <;> exact ⟨rfl,rfl,rfl⟩
    · split_ifs at h <;> obtain rfl := Except.ok.inj h <;> cases c.captures <;> simp [Channel.only]
    · split_ifs at h with hbytes hclosed hmerged <;> obtain rfl := Except.ok.inj h
      all_goals cases stream <;> simp_all [own,passed,passes,Channel.only]

theorem takes_error {e : IoError} (h : c.write channel bytes = .error e) :
    c.Takes (channel.only bytes) c := by
  cases channel with
  | output =>
    cases hcaptures : c.captures with
    | cons capture outer => simp only [write,hcaptures,reduceCtorEq] at h
    | nil =>
      simp only [write,hcaptures] at h
      split_ifs at h with hbytes hclosed
      refine ⟨.refl c,by simp [hcaptures],fun stream => ?_⟩
      cases stream <;> simp [passed,passes,hclosed,Channel.only]
  | errors =>
    simp only [write] at h
    split_ifs at h with hbytes hclosed
    refine ⟨.refl c,?_,fun stream => ?_⟩
    · cases c.captures <;> simp [Channel.only]
    · cases stream <;> simp [passed,passes,hclosed,Channel.only]

end Console

def Frame.captures : Frame → Bool
  | substitution _ => true
  | expansion _ _ | command _ _ => false

/-- The streams at some point of a course, and in how many substitutions of the course it lies. -/
structure Layer where
  console : Console
  depth : Nat

def Moment.layer (m : Moment κ) : Layer :=
  ⟨m.shell.session.console,m.around.countP Frame.captures⟩

def Shell.layer (s : Shell κ) : Layer := ⟨s.session.console,0⟩

namespace Layer

variable {a b d : Layer}

/-- Nothing is written between the two. Captures of the course may end, and empty ones begin. -/
structure Turns (a b : Layer) : Prop extends a.console.Alike b.console where
  captures : ∃ ended begun, ended ≤ a.depth ∧ a.depth + begun = b.depth + ended ∧
    b.console.captures = List.replicate begun [] ++ a.console.captures.drop ended
  own : ∀ stream, b.console.own stream = a.console.own stream

theorem Turns.refl (a : Layer) : a.Turns a := ⟨.refl _,⟨0,0,by simp⟩,fun _ => rfl⟩

theorem Turns.trans (h : a.Turns b) (h' : b.Turns d) : a.Turns d := by
  refine ⟨h.toAlike.trans h'.toAlike,?_,fun stream => (h'.own stream).trans (h.own stream)⟩
  obtain ⟨ended,begun,hended,hdepth,hcaptures⟩ := h.captures
  obtain ⟨ended',begun',hended',hdepth',hcaptures'⟩ := h'.captures
  rw [hcaptures] at hcaptures'
  -- the captures that end last may have begun in between
  by_cases hle : ended' ≤ begun
  · refine ⟨ended,begun' + (begun - ended'),hended,by omega,?_⟩
    rw [hcaptures',List.drop_append_of_le_length (by simpa using hle),List.drop_replicate,
      ← List.append_assoc,List.replicate_append_replicate]
  · refine ⟨ended + (ended' - begun),begun',by omega,by omega,?_⟩
    rw [hcaptures',List.drop_append,List.drop_eq_nil_of_le (by simp; omega),List.length_replicate,
      List.drop_drop,List.nil_append]

def deeper (a : Layer) : Layer := { a with depth := a.depth + 1 }

theorem Turns.deeper (h : a.Turns b) : a.deeper.Turns b.deeper := by
  obtain ⟨ended,begun,hended,hdepth,hcaptures⟩ := h.captures
  exact ⟨h.toAlike,⟨ended,begun,Nat.le_succ_of_le hended,by simp [Layer.deeper]; omega,hcaptures⟩,
    h.own⟩

/-- The captures that were there before the course, below those that began in it. -/
def base (a : Layer) : List Bytes := a.console.captures.drop a.depth

theorem Turns.base (h : a.Turns b) : b.base = a.base := by
  obtain ⟨ended,begun,hended,hdepth,hcaptures⟩ := h.captures
  rw [Layer.base,hcaptures,List.drop_append,List.drop_eq_nil_of_le (by simp; omega),
    List.length_replicate,List.drop_drop,List.nil_append,Layer.base]
  congr 1
  omega

end Layer

namespace Shell

theorem turns_capture (s : Shell κ) : s.layer.Turns s.capture.layer.deeper :=
  ⟨⟨rfl,rfl,rfl⟩,⟨0,1,by simp [layer,Layer.deeper,capture,updated,Console.capture]⟩,
    fun stream => by cases stream <;> rfl⟩

theorem turns_release (s : Shell κ) : s.layer.deeper.Turns s.release.layer :=
  ⟨⟨rfl,rfl,rfl⟩,⟨1,0,by simp [layer,Layer.deeper,release,updated,Console.release]⟩,
    fun stream => by cases stream <;> rfl⟩

end Shell

namespace Engine

def shown (engine : Engine κ) (s : Shell κ) (path : String) (args : List String) : Bytes :=
  match s.resolve path with
  | .ok (.command _ r) =>
    if r.descriptor.verbatim then []
    else match (engine.command r.descriptor.action).bind args with
      | .ok (.help text) => Text.encode (Text.trimmedEnd text ++ "\n")
      | _ => []
  | _ => []

/-- What is written at a moment. -/
def written (engine : Engine κ) (m : Moment κ) : Channel → Bytes :=
  match m.what with
  | .request (.write channel bytes) => channel.only bytes
  | .call path args => Channel.output.only (engine.shown m.shell path args)
  | .reported e => Channel.errors.only (Text.encode (e.message ++ "\n"))
  | _ => fun _ => []

/-- The course leads from one layer to another: what is written at each of its moments is taken
there, and captures end and begin between them. -/
inductive Flows (engine : Engine κ) : Layer → List (Moment κ) → Layer → Prop
  | rest {a b} (h : a.Turns b) : Flows engine a [] b
  | moment {a b : Layer} {m c τ} (h : a.Turns m.layer)
      (ht : m.shell.session.console.Takes (engine.written m) c)
      (hr : Flows engine ⟨c,m.layer.depth⟩ τ b) : Flows engine a (m :: τ) b

variable {engine : Engine κ} {a b d : Layer} {m : Moment κ} {τ τ' : List (Moment κ)}
  {s s' : Shell κ} {inner : Reentry κ}

theorem Flows.turns (h : a.Turns b) (hb : engine.Flows b τ d) : engine.Flows a τ d := by
  cases hb with
  | rest hb => exact .rest (h.trans hb)
  | moment hm ht hr => exact .moment (h.trans hm) ht hr

theorem Flows.append (h : engine.Flows a τ b) (h' : engine.Flows b τ' d) :
    engine.Flows a (τ ++ τ') d := by
  induction h with
  | rest h => exact h'.turns h
  | moment hm ht _ ih => exact .moment hm ht (ih h')

/-- Around a moment the frame may be one that captures, and then all lies one layer deeper. -/
theorem Flows.deeper {f : Frame} (hf : f.captures = true) (h : engine.Flows a τ b) :
    engine.Flows a.deeper (τ.map (Moment.inside f)) b.deeper := by
  induction h with
  | rest h => exact .rest h.deeper
  | @moment a b m c τ hm ht _ ih =>
    have hlayer : (m.inside f).layer = m.layer.deeper := by
      simp [Moment.layer,Moment.inside,Layer.deeper,hf]
    refine .moment (hlayer ▸ hm.deeper) ht ?_
    rw [hlayer]
    exact ih

theorem Flows.inside {f : Frame} (hf : f.captures = false) (h : engine.Flows a τ b) :
    engine.Flows a (τ.map (Moment.inside f)) b := by
  induction h with
  | rest h => exact .rest h
  | @moment a b m c τ hm ht _ ih =>
    have hlayer : (m.inside f).layer = m.layer := by
      simp [Moment.layer,Moment.inside,hf]
    refine .moment (hlayer ▸ hm) ht ?_
    rw [hlayer]
    exact ih

theorem Flows.nil (a : Layer) : engine.Flows a [] a := .rest (.refl a)

theorem Flows.now {what : Happening κ}
    (ht : s.session.console.Takes (engine.written (.now s what)) s'.session.console)
    (h : engine.Flows s'.layer τ d) : engine.Flows s.layer (.now s what :: τ) d :=
  .moment (.refl _) ht h

theorem takes_silent {what : Happening κ}
    (h : engine.written (.now s what) = fun _ => []) :
    s.session.console.Takes (engine.written (.now s what)) s.session.console := by
  rw [h]
  exact Console.takes_nothing _ _

theorem Flows.silent {what : Happening κ} (hw : engine.written (.now s what) = fun _ => [])
    (h : engine.Flows s.layer τ d) : engine.Flows s.layer (.now s what :: τ) d :=
  .now (takes_silent hw) h

theorem takes_answer {r : Request κ} (hr : r.Direct) {a : r.Answer}
    (h : engine.answer inner r s = some (a,s')) :
    s.session.console.Takes (engine.written (.now s (.request r))) s'.session.console := by
  cases r with
  | execute l => exact hr.elim
  | run path args => exact hr.elim
  | executeAlias name l => exact hr.elim
  | write channel bytes =>
    simp only [answer,Act.write] at h
    split at h <;> obtain ⟨-,rfl⟩ := Prod.mk.inj (Option.some.inj h)
    · exact Console.takes_write ‹_›
    · exact Console.takes_error ‹_›
  | register d =>
    simp only [answer,Act.register] at h
    split at h <;> obtain ⟨-,rfl⟩ := Prod.mk.inj (Option.some.inj h) <;> exact takes_silent rfl
  | unregister name =>
    simp only [answer,Act.unregister] at h
    split at h <;> obtain ⟨-,rfl⟩ := Prod.mk.inj (Option.some.inj h) <;> exact takes_silent rfl
  | launch file args bindings =>
    simp only [answer,Act.launch] at h
    split at h <;> obtain ⟨-,rfl⟩ := Prod.mk.inj (Option.some.inj h) <;> exact takes_silent rfl
  | readAll | readByte =>
    obtain ⟨-,rfl⟩ := Prod.mk.inj (Option.some.inj h)
    exact Console.takes_nothing _ _
  | _ =>
    obtain ⟨-,rfl⟩ := Prod.mk.inj (Option.some.inj h)
    exact takes_silent rfl

theorem written_call (path : String) (args : List String) :
    engine.written (.now s (.call path args)) =
      Channel.output.only (engine.shown s path args) := rfl

theorem only_nil (channel : Channel) : channel.only [] = fun _ => [] := by
  funext target
  simp [Channel.only]

theorem Outright.takes {path : String} {args : List String} {o : Except ShellError Value}
    (h : engine.Outright path args s o s') :
    s.session.console.Takes (engine.written (.now s (.call path args))) s'.session.console := by
  rw [written_call]
  cases h with
  | unresolved h | group h =>
    simp only [shown,h,only_nil]
    exact Console.takes_nothing _ _
  | usage h hv hb =>
    simp only [shown,h,hv,hb,Bool.false_eq_true,if_false,only_nil]
    exact Console.takes_nothing _ _
  | helped h hv hb hw =>
    simp only [shown,h,hv,hb,Bool.false_eq_true,if_false]
    exact Console.takes_write hw
  | unhelped h hv hb hw =>
    simp only [shown,h,hv,hb,Bool.false_eq_true,if_false]
    exact Console.takes_error hw

theorem written_aliased {path : String} {args : List String} {x : Alias}
    (h : s.resolve path = .ok (.aliased x)) :
    engine.written (.now s (.call path args)) = fun _ => [] := by
  simp only [written_call,shown,h,only_nil]

theorem written_ran {path : String} {args : List String} {p : Path} {r : Registered κ}
    {body : Invocation → Program κ Value} (h : s.resolve path = .ok (.command p r))
    (hb : (engine.command r.descriptor.action).Starts r.descriptor.verbatim args body) :
    engine.written (.now s (.call path args)) = fun _ => [] := by
  rw [written_call]
  cases hb with
  | verbatim hv => simp only [shown,h,hv,if_true,only_nil]
  | bound hv hb => simp only [shown,h,hv,hb,Bool.false_eq_true,if_false,only_nil]

/-- What is written goes where it should in the course of this task. That of a substitution lies
in the capture that the substitution begins and ends. -/
def Flowing (engine : Engine κ) : Task κ → Shell κ → List (Moment κ) → Shell κ → Prop
  | .substitution _,s,τ,s' =>
    ∃ t : Shell κ, s' = t.release ∧ engine.Flows s.capture.layer τ t.layer
  | _,s,τ,s' => engine.Flows s.layer τ s'.layer

theorem flowing_nil (t : Task κ) (s : Shell κ) : engine.Flowing t s [] s := by
  cases t with
  | substitution l => exact ⟨s.capture,rfl,.nil _⟩
  | _ => exact .nil _

theorem Flows.substituted {t : Shell κ} (l : String) (h : engine.Flows s.capture.layer τ t.layer) :
    engine.Flows s.layer (τ.map (Moment.inside (.substitution l))) t.release.layer := by
  have hinner := (h.deeper (f := .substitution l) rfl).append (.rest t.turns_release)
  rw [List.append_nil] at hinner
  exact hinner.turns s.turns_capture

theorem Runs.flows {t : Task κ} {x : Except Halt t.Yield} (h : engine.Runs t s τ x s') :
    engine.Flowing t s τ s' := by
  induction h with
  | cut => exact flowing_nil _ _
  | done | assembled | split | finished | failed => exact .nil _
  | unfinished => exact .silent rfl (.silent rfl (.nil _))
  | parsed _ _ ih | unexpanded _ ih | blank _ _ ih => exact .silent rfl ih
  | next _ _ ih ih' | text _ _ _ ih ih' => exact ih.append ih'
  | stopped _ _ ih | space _ ih | verbatim _ ih | textFailed _ _ ih | literal _ ih
  | parameter _ _ ih => exact ih
  | reported _ _ hw _ ih ih' => exact ih.append (.now (Console.takes_write hw) ih')
  | unreported _ _ _ ih => exact ih.append (.silent rfl (.nil _))
  | called _ _ _ ih ih' => exact .silent rfl (ih.append ih')
  | parameterFailed | refused => exact .silent rfl (.nil _)
  | replaced _ _ ih ih' =>
    obtain ⟨t,rfl,ht⟩ := ih
    exact (ht.substituted _).append ih'
  | unreplaced _ ih =>
    obtain ⟨t,rfl,ht⟩ := ih
    exact ht.substituted _
  | captured _ ih => exact ⟨_,rfl,ih⟩
  | outright h => exact .now h.takes (.nil _)
  | outrightFailed h => exact .now h.takes (.silent rfl (.nil _))
  | aliased h _ ih => exact .silent (written_aliased h) ih
  | ran h hb _ ih =>
    exact .silent (written_ran h hb) ((ih.inside rfl).append (.silent rfl (.nil _)))
  | ranCut h hb _ ih => exact .silent (written_ran h hb) (ih.inside rfl)
  | expanded _ _ ih => exact ih.inside rfl
  | answered hd ha _ ih => exact .now (takes_answer hd ha) ih
  | nested hr _ _ ih ih' => cases hr <;> exact .silent rfl (ih.append ih')
  | nestedCut hr _ ih => cases hr <;> exact .silent rfl ih

/-- What goes to the capture in which the course runs: the output that no substitution of the
course is around. -/
def gathered (engine : Engine κ) (τ : List (Moment κ)) : Bytes :=
  (τ.filter fun m => m.layer.depth = 0).flatMap (engine.written · .output)

theorem gathered_cons (m : Moment κ) (τ : List (Moment κ)) : engine.gathered (m :: τ) =
    (if m.layer.depth = 0 then engine.written m .output else []) ++ engine.gathered τ := by
  by_cases hm : m.layer.depth = 0 <;> simp [gathered,hm]

theorem Flows.alike (h : engine.Flows a τ b) : a.console.Alike b.console := by
  induction h with
  | rest h => exact h.toAlike
  | moment hm ht _ ih => exact (hm.toAlike.trans ht.toAlike).trans ih

theorem Flows.own (h : engine.Flows a τ b) (stream : Channel) :
    b.console.own stream = a.console.own stream ++
      τ.flatMap fun m => m.shell.session.console.passed (engine.written m) stream := by
  induction h with
  | rest h => simpa using h.own stream
  | @moment a b m c τ hm ht _ ih =>
    have hown : m.shell.session.console.own stream = a.console.own stream := hm.own stream
    rw [ih,ht.own,hown,List.flatMap_cons,List.append_assoc]

/-- Of the captures that were there before the course, it adds to the innermost, and does so only
outside of its own substitutions. -/
theorem Flows.base (h : engine.Flows a τ b) :
    b.base = a.base.modifyHead (· ++ engine.gathered τ) := by
  induction h with
  | @rest a b h =>
    rw [h.base]
    cases a.base <;> simp [gathered]
  | @moment a b m c τ hm ht _ ih =>
    rw [ih,← hm.base,gathered_cons]
    by_cases hdepth : m.layer.depth = 0
    · have hhead : (⟨c,m.layer.depth⟩ : Layer).base =
          m.layer.base.modifyHead (· ++ engine.written m .output) := by
        rw [Layer.base,Layer.base,hdepth]
        exact ht.captures
      rw [hhead,if_pos hdepth]
      cases m.layer.base <;> simp
    · have htail : (⟨c,m.layer.depth⟩ : Layer).base = m.layer.base := by
        simp only [Layer.base,ht.captures]
        obtain ⟨n,hn⟩ := Nat.exists_eq_succ_of_ne_zero hdepth
        rw [hn]
        change List.drop (n + 1) _ = m.shell.session.console.captures.drop (n + 1)
        cases m.shell.session.console.captures <;> simp
      rw [htail,if_neg hdepth,List.nil_append]

theorem Flows.before {τ' : List (Moment κ)} (h : engine.Flows a (τ ++ m :: τ') b) :
    engine.Flows a τ m.layer := by
  induction τ generalizing a with
  | nil =>
    cases h with
    | moment hm _ _ => exact .rest hm
  | cons m' τ ih =>
    cases h with
    | moment hm ht hr => exact .moment hm ht (ih hr)

theorem Flows.captured (h : engine.Flows a τ b) (ha : a.base ≠ []) (hm : m ∈ τ) :
    m.shell.session.console.captures ≠ [] := by
  obtain ⟨τ₁,τ₂,rfl⟩ := List.append_of_mem hm
  intro hnil
  have hbase := h.before.base
  rw [Layer.base,Moment.layer,hnil,List.drop_nil] at hbase
  cases hcaptures : a.base with
  | nil => exact ha hcaptures
  | cons => simp [hcaptures] at hbase

theorem Flows.alike_of_mem (h : engine.Flows a τ b) (hm : m ∈ τ) :
    a.console.Alike m.shell.session.console := by
  obtain ⟨τ₁,τ₂,rfl⟩ := List.append_of_mem hm
  exact h.before.alike

end Engine
end CommandShell
