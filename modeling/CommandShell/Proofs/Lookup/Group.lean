import CommandShell.Builtin
import CommandShell.Proofs.Lookup.Normal
import CommandShell.Proofs.Lookup.Walk
import CommandShell.Proofs.Path.Encoding
import CommandShell.Proofs.Registry.Still
import CommandShell.Proofs.Run.Course
import CommandShell.Proofs.Run.Sequence

/-! The group that a session is in.
A session is sent to a group by a text that is read from where the session is, even if there is
nothing any more. It keeps the group as a text too. It arrives where the normal form of the way
leads, or stays where it is; and to be sent where it is makes no difference. -/
namespace CommandShell

variable {κ : Type}

namespace Path

variable {p : Path}

theorem Normal.clamped (h : p.Normal) : ∀ name ∈ p.clamped.segments, name ≠ "." ∧ name ≠ ".." := by
  obtain ⟨k,names,he,hn⟩ := h
  have hkept : p.clamped.segments = names := by
    have hreverse : kept (names.reverse ++ List.replicate k "..") = names.reverse.reverse :=
      kept_append k fun name hm => (hn name (List.mem_reverse.1 hm)).2
    rwa [kept,List.reverse_append,List.reverse_reverse,List.reverse_replicate,← he] at hreverse
  exact fun name hm => hn name (hkept ▸ hm)

/-- The path leads down from the root, by names that can be written. -/
structure Downward (p : Path) : Prop where
  absolute : p.absolute = true
  plain : ∀ name ∈ p.segments, Plain name
  regular : ∀ name ∈ p.segments, name ≠ "." ∧ name ≠ ".."

theorem downward_root : root.Downward :=
  ⟨rfl,fun _ hm => absurd hm List.not_mem_nil,fun _ hm => absurd hm List.not_mem_nil⟩

theorem Obtained.downward_clamped (h : p.Obtained) (habs : p.absolute = true) :
    p.normalize.clamped.Downward where
  absolute := habs
  plain name hm := h.normalized.plain name (List.dropWhile_subset _ hm)
  regular := (normal_normalize p).clamped

namespace Downward

variable (h : p.Downward)
include h

theorem isName : ∀ name ∈ p.segments, IsName name := by
  refine fun name hm => ⟨?_,h.regular name hm⟩
  rintro rfl
  exact (h.plain _ hm).2 (by decide)

theorem normal : p.Normal := ⟨0,p.segments,rfl,h.regular⟩

theorem clamped_eq : p.clamped = p := by
  refine Path.ext rfl (List.dropWhile_eq_self_iff.2 fun hl => ?_)
  simpa using (h.regular _ (List.getElem_mem hl)).2

theorem parse_text : parse p.text = .ok p := parse_text_of_plain h.absolute h.plain

theorem fromRoot_eq : p.fromRoot = p := by
  rw [fromRoot,join_of_absolute _ h.absolute,normalize_eq_self_iff.2 h.normal]

end Downward
end Path

namespace Environment

variable {e : Environment} {target : Option String} {text : String} {p goal : Path}

/-- Where a target leads from the current group, the root being above itself. Without a target
that is the root. -/
def destination (e : Environment) (target : Option String) : Path :=
  match target.map Path.parse with
  | some (.ok p) => (e.currentGroup.join p).normalize.clamped
  | _ => .root

theorem destination_of_parse (hp : Path.parse text = .ok p) :
    e.destination (some text) = (e.currentGroup.join p).normalize.clamped := by
  simp [destination,hp]

theorem obtained_currentGroup (e : Environment) : e.currentGroup.Obtained := by
  unfold currentGroup
  cases e.get? groupName with
  | none => exact .root
  | some text =>
    cases hp : Path.parse text with
    | error f => simpa [hp] using Path.Obtained.root
    | ok p =>
      have hroot : p.fromRoot.Obtained := (Path.Obtained.root.joined (.parsed hp)).normalized
      simpa [hp] using hroot

theorem absolute_join_currentGroup (e : Environment) (p : Path) :
    (e.currentGroup.join p).absolute = true := by
  have hgroup : e.currentGroup.absolute = true := by
    unfold currentGroup
    split
    · exact Path.absolute_fromRoot _
    · rfl
  cases hp : p.absolute with
  | true => rwa [Path.join_of_absolute _ hp]
  | false => simpa [Path.join,hp] using hgroup

theorem downward_destination (e : Environment) (target : Option String) :
    (e.destination target).Downward := by
  unfold destination
  split
  case h_1 p hp =>
    obtain ⟨text,-,hp⟩ := Option.map_eq_some_iff.1 hp
    exact (e.obtained_currentGroup.joined (.parsed hp)).downward_clamped
      (e.absolute_join_currentGroup p)
  case h_2 => exact Path.downward_root

theorem currentGroup_of_downward (hg : goal.Downward) :
    (e.setCurrentGroup goal).currentGroup = goal := by
  rw [currentGroup_setCurrentGroup e hg.plain,hg.fromRoot_eq]

theorem destination_text (e : Environment) (hg : goal.Downward) :
    e.destination (some goal.text) = goal := by
  rw [destination_of_parse hg.parse_text,Path.join_of_absolute _ hg.absolute,
    Path.normalize_eq_self_iff.2 hg.normal,hg.clamped_eq]

theorem setCurrentGroup_setCurrentGroup (e : Environment) (g : Path) :
    (e.setCurrentGroup g).setCurrentGroup g = e.setCurrentGroup g := by
  have hset : (e.vars.insert groupName g.text)[groupName]? = some g.text := by simp
  simp only [setCurrentGroup,set,SortedMap.insert_eq_self hset]

end Environment

namespace Tree

variable {α : Type} {t : Tree α} {goal : Path}

/-- The path leads from the root to a group. -/
def HasGroup (t : Tree α) (p : Path) : Prop :=
  ∃ id, t.find? rootId p = some id ∧ t.isGroup id = true

theorem Linked.hasGroup_iff (ht : t.Linked) (hg : goal.Downward) :
    t.HasGroup goal ↔ ∃ id, t.at? goal.segments = some id ∧ t.isGroup id = true := by
  unfold HasGroup
  rw [ht.find?_eq_at? goal.absolute hg.isName]

theorem Lists.hasGroup_iff {S : Set (Registered κ)} {t : Tree (Registered κ)} (h : t.Lists S)
    (hg : goal.Downward) : t.HasGroup goal ↔ IsGroup S goal.segments := by
  rw [h.linked.hasGroup_iff hg]
  constructor
  · rintro ⟨id,hid,hgroup⟩
    exact (h.isGroup_iff hid).1 hgroup
  · intro hgroup
    obtain ⟨id,hid⟩ := h.at?_isSome_iff.2 hgroup.isPlace
    exact ⟨id,hid,(h.isGroup_iff hid).2 hgroup⟩

end Tree

namespace Kernel

variable {k : Kernel κ}

/-- The tree follows the registry, whoever else follows it and whatever was called. -/
def Followed (k : Kernel κ) : Prop :=
  ∃ (calls : List (Hub.Call κ)) (i : Nat), (Hub.empty.run calls).registry = k.registry ∧
    (Hub.empty.run calls).followers[i]? = some (.names k.names)

theorem Followed.lists (hk : k.Followed) :
    k.synced.names.tree.Lists k.registry.registered := by
  obtain ⟨calls,i,hr,hi⟩ := hk
  have hlists := (Hub.good_empty.run calls).names_lists hi
  rwa [hr] at hlists

theorem followed_run (history : List (Call κ)) : (empty.run history).Followed := by
  have hrun : ∀ (k : Kernel κ) history,
      (k.run history).hub = k.hub.run (history.map Call.onHub) := by
    intro k history
    induction history generalizing k with
    | nil => rfl
    | cons c history ih => exact (ih (k.step c)).trans (by rw [hub_step]; rfl)
  have hhub : (empty.run history).hub =
      Hub.empty.run ([.join .names,.join .completion] ++ history.map Call.onHub) := by
    rw [hrun,hub_empty,Hub.run,Hub.run,Hub.run,List.foldl_append]
  refine ⟨_,0,(congrArg Hub.registry hhub).symm,?_⟩
  rw [← hhub]
  rfl

end Kernel

def Shell.entered (s : Shell κ) (goal : Path) : Shell κ :=
  s.updated fun x => { x with environment := x.environment.setCurrentGroup goal }

namespace Builtin

variable {engine : Engine κ} {inner : Reentry κ} {s : Shell κ} {bound : Arguments.Bound}
  {text : String} {p : Path}

def performed (engine : Engine κ) (inner : Reentry κ) (b : Builtin) (bound : Arguments.Bound) :
    Act κ (Except Failure Value) :=
  (b.body bound).perform (engine.answer inner)

theorem cd_of_root (h : bound.words.head? = none ∨ bound.words.head? = some "") :
    performed engine inner .cd bound s = some (.ok .null,s.entered .root) := by
  rcases h with h | h <;> simp only [performed,body,cdBody,h] <;> rfl

section Target

variable (hb : bound.words.head? = some text) (hp : Path.parse text = .ok p)
include hb hp

theorem cd_eq : performed engine inner .cd bound s =
    match s.kernel.synced.names.tree.find? Tree.rootId
      (s.session.environment.currentGroup.join p).normalize with
    | none => some (.error (.message ("no such group: " ++ text)),s.synced)
    | some id =>
      if s.kernel.synced.names.tree.isGroup id then
        some (.ok .null,s.synced.entered (s.kernel.synced.names.tree.fullPath id))
      else some (.error (.message ("not a group: " ++ text)),s.synced) := by
  have hne : text ≠ "" := by
    rintro rfl
    cases hp
  have hbody : (cdBody bound : Program κ Value) = (locateGroup text).bind fun group =>
      .ask .environment fun e => .ask (.setEnvironment (e.setCurrentGroup group)) fun _ =>
        .done .null := by
    unfold cdBody
    rw [hb]
    split
    case h_1 he => cases he
    case h_2 he => exact absurd (Option.some.inj he) hne
    case h_3 he => rw [← Option.some.inj he]; rfl
  -- both answers come from the shell as it is, and the second brings the tree up to date
  have hask : ∀ (way : Environment → Tree (Registered κ) → Program κ Path)
      (next : Path → Program κ Value),
      ((Program.ask .environment fun e => .ask .tree fun t => way e t).bind next).perform
          (engine.answer inner) s =
        ((way s.session.environment s.kernel.synced.names.tree).bind next).perform
          (engine.answer inner) s.synced :=
    fun _ _ => rfl
  rw [performed,body,hbody,locateGroup,hp]
  refine (hask _ _).trans ?_
  cases s.kernel.synced.names.tree.find? Tree.rootId
    (s.session.environment.currentGroup.join p).normalize with
  | none => rfl
  | some id =>
    dsimp only
    split_ifs <;> rfl

variable (ht : s.kernel.synced.names.tree.Linked)
include ht

theorem cd_of_hasGroup
    (h : s.kernel.synced.names.tree.HasGroup (s.session.environment.destination (some text))) :
    performed engine inner .cd bound s =
      some (.ok .null,s.synced.entered (s.session.environment.destination (some text))) := by
  have hg := s.session.environment.downward_destination (some text)
  obtain ⟨id,hid,hgroup⟩ := h
  have hplace := hid
  rw [ht.find?_eq_at? _ hg.isName] at hplace
  have hfull : s.kernel.synced.names.tree.fullPath id =
      s.session.environment.destination (some text) :=
    (ht.fullPath_eq hplace).trans (Path.ext hg.absolute.symm rfl)
  -- the walk takes the `..` above the root too, and stays there
  rw [Environment.destination_of_parse hp,ht.find?_clamped] at hid
  rw [cd_eq hb hp,hid]
  simp only [hgroup,if_true,hfull]

theorem cd_of_not_hasGroup
    (h : ¬s.kernel.synced.names.tree.HasGroup (s.session.environment.destination (some text))) :
    ∃ f, performed engine inner .cd bound s = some (.error f,s.synced) := by
  rw [Environment.destination_of_parse hp] at h
  rw [cd_eq hb hp]
  split
  case h_1 => exact ⟨_,rfl⟩
  case h_2 id hid =>
    rw [← ht.find?_clamped] at hid
    exact ⟨_,if_neg fun hgroup => h ⟨id,hid,hgroup⟩⟩

end Target

/-- The session is in the group and says so, and nothing comes of sending it there. -/
structure IsIn (engine : Engine κ) (inner : Reentry κ) (s : Shell κ) (goal : Path) : Prop where
  current : s.session.environment.currentGroup = goal
  shown : ∀ bound, performed engine inner .pwd bound s = some (.ok (.str goal.text),s)
  again : ∀ bound, bound.words.head? = some goal.text →
    performed engine inner .cd bound s = some (.ok .null,s.synced)

theorem isIn_entered {goal : Path} (ht : s.kernel.synced.names.tree.Linked) (hg : goal.Downward)
    (h : s.kernel.synced.names.tree.HasGroup goal) : IsIn engine inner (s.entered goal) goal := by
  have hcurrent : (s.entered goal).session.environment.currentGroup = goal :=
    Environment.currentGroup_of_downward hg
  refine ⟨hcurrent,fun bound => ?_,fun bound hb => ?_⟩
  · have hpwd : performed engine inner .pwd bound (s.entered goal) =
        some (.ok (.str (s.entered goal).session.environment.currentGroup.text),s.entered goal) :=
      rfl
    rw [hpwd,hcurrent]
  · have hsame : (s.entered goal).synced.entered goal = (s.entered goal).synced := by
      simp only [Shell.entered,Shell.updated,Shell.synced,
        Environment.setCurrentGroup_setCurrentGroup]
    have hdest := (s.entered goal).session.environment.destination_text hg
    have hcd : performed engine inner .cd bound (s.entered goal) = _ :=
      cd_of_hasGroup hb hg.parse_text ht (hdest.symm ▸ h)
    rwa [hdest,hsame] at hcd

/-- A session comes to the group where the normal form of the way leads, if it is there now, and
else it keeps all that it has. That group is absolute and normal and not above the root, and it is
the root or lies above a registered command. -/
theorem cd_lands_on_groups (engine : Engine κ) (inner : Reentry κ) (s : Shell κ)
    (hk : s.kernel.Followed) (bound : Arguments.Bound) :
    let goal := s.session.environment.destination bound.words.head?
    let tree := s.kernel.synced.names.tree
    (goal.absolute = true ∧ goal.normalize = goal ∧ ".." ∉ goal.segments) ∧
    (tree.HasGroup goal ↔ IsGroup s.kernel.registry.registered goal.segments) ∧
    (tree.HasGroup goal → ∃ k, s.kernel.Still k ∧
      performed engine inner .cd bound s = some (.ok .null,{ s.entered goal with kernel := k }) ∧
      IsIn engine inner { s.entered goal with kernel := k } goal) ∧
    (¬tree.HasGroup goal → ∃ f, performed engine inner .cd bound s = some (.error f,s.synced)) := by
  intro goal tree
  have hl : tree.Lists s.kernel.registry.registered := hk.lists
  have hg : goal.Downward := s.session.environment.downward_destination _
  refine ⟨⟨hg.absolute,Path.normalize_eq_self_iff.2 hg.normal,fun hm => (hg.regular _ hm).2 rfl⟩,
    hl.hasGroup_iff hg,?_⟩
  by_cases htext : bound.words.head? = none ∨ bound.words.head? = some ""
  · have hroot : goal = .root := by
      rcases htext with h | h <;> simp only [goal,h] <;> rfl
    have hhas : tree.HasGroup goal := by
      rw [hl.hasGroup_iff hg,hroot]
      exact .inl rfl
    refine ⟨fun _ => ⟨s.kernel,Kernel.still_refl _,?_,isIn_entered hl.linked hg hhas⟩,
      fun hno => absurd hhas hno⟩
    rw [hroot]
    exact cd_of_root htext
  · obtain ⟨text,hb⟩ := Option.ne_none_iff_exists'.1 (not_or.1 htext).1
    obtain ⟨p,hp,-⟩ := Path.exists_parse fun he => (not_or.1 htext).2 (he ▸ hb)
    have hgoal : goal = s.session.environment.destination (some text) :=
      congrArg s.session.environment.destination hb
    have hsynced : s.synced.kernel.synced.names.tree = tree :=
      congrArg (·.names.tree) s.kernel.synced_synced
    rw [hgoal] at hg ⊢
    refine ⟨fun hhas => ⟨s.kernel.synced,s.kernel.still_synced,
      cd_of_hasGroup hb hp hl.linked hhas,?_⟩,cd_of_not_hasGroup hb hp hl.linked⟩
    exact isIn_entered (hsynced ▸ hl.linked) hg (hsynced ▸ hhas)

def removal : List (Kernel.Call Builtin) :=
  [.register (.named "/old/x" .echo),.read,.unregister "old/x",
    .register (.named "/tool/sub/run" .echo)]

def stray : Shell Builtin :=
  ⟨Kernel.empty.run removal,.empty,
    { Session.opened default with environment := .ofList [("GROUP","x/../old")] }⟩

/-- It gets away by more `..` than there are groups. -/
theorem cd_lands_on_groups_stray :
    let goal : Path := ⟨true,["tool","sub"]⟩
    let bound : Arguments.Bound := ⟨[],["../../tool/./sub/"]⟩
    let engine := Engine.ofBuiltins
    stray.kernel.Followed ∧ stray.session.environment.currentGroup = ⟨true,["old"]⟩ ∧
    ¬IsGroup stray.kernel.registry.registered ["old"] ∧
    stray.session.environment.destination bound.words.head? = goal ∧
    ∃ k, stray.kernel.Still k ∧
      performed engine (engine.reentry 2) .cd bound stray =
        some (.ok .null,{ stray.entered goal with kernel := k }) ∧
      IsIn engine (engine.reentry 2) { stray.entered goal with kernel := k } goal := by
  intro goal bound engine
  have hk : stray.kernel.Followed := Kernel.followed_run removal
  have hgoal : stray.session.environment.destination bound.words.head? = goal := by
    decide +kernel
  have hpaths : stray.kernel.registry.toList.map Registered.path =
      [⟨true,["tool","sub","run"]⟩] := by
    decide +kernel
  obtain ⟨c,hc,hp⟩ : ∃ c ∈ stray.kernel.registry.toList, c.path = ⟨true,["tool","sub","run"]⟩ :=
    List.mem_map.1 (hpaths ▸ List.mem_cons_self)
  have hgone : ¬IsGroup stray.kernel.registry.registered ["old"] := by
    rintro (h | ⟨d,hd,hm⟩)
    · cases h
    · have hd := List.mem_map_of_mem (f := Registered.path) hd
      rw [hpaths,List.mem_singleton] at hd
      rw [hd] at hm
      revert hm
      decide
  obtain ⟨-,hiff,henters,-⟩ := cd_lands_on_groups engine (engine.reentry 2) stray hk bound
  rw [hgoal] at hiff henters
  have hgroup : IsGroup stray.kernel.registry.registered goal.segments :=
    .inr ⟨c,hc,by rw [hp]; decide⟩
  exact ⟨hk,by decide +kernel,hgone,hgoal,henters (hiff.2 hgroup)⟩

end Builtin
end CommandShell
