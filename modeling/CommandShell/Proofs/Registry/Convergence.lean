import CommandShell.Proofs.Registry.Hub
import CommandShell.Proofs.Tree.Entries

/-! What followers show when they have taken all their events.
A tree and an index depend on the commands that the events lead to, and not on the way there. So
it makes no difference when a follower joined or how often it took its events. -/
namespace CommandShell

variable {κ : Type} {S : Set (Registered κ)}

namespace Tree

variable {t t' : Tree (Registered κ)}

theorem Linked.stands_root_iff (ht : t.Linked) {p : Path} {x : Payload (Registered κ)}
    (hp : p.segments = []) : (∃ id, t.Stands id p x) ↔ p.absolute = true ∧ x = .group := by
  obtain ⟨n,hn,-,hg,-⟩ := ht.root
  simp only [stands_iff ht,hp,at?_nil]
  constructor
  · rintro ⟨id,habs,hid,m,hm,rfl⟩
    obtain rfl := Option.some.inj hid
    obtain rfl := Option.some.inj (hm.symm.trans hn)
    exact ⟨habs,hg⟩
  · rintro ⟨habs,rfl⟩
    exact ⟨rootId,habs,rfl,n,hn,hg⟩

theorem Lists.entries_eq (h : t.Lists S) (h' : t'.Lists S) : t.entries = t'.entries := by
  obtain ⟨M,hM,hl⟩ := h
  obtain ⟨M',hM',hl'⟩ := h'
  have hentry : ∀ q, M.entryAt q = M'.entryAt q := fun q =>
    Option.ext fun e => (hl q e).trans (hl' q e).symm
  refine hM.linked.entries_eq hM'.linked fun e => ?_
  rw [hM.linked.mem_entries_iff,hM'.linked.mem_entries_iff]
  by_cases hp : e.1.segments = []
  · exact (hM.linked.stands_root_iff hp).trans (hM'.linked.stands_root_iff hp).symm
  · refine (hM.stands_iff hp).trans ?_
    rw [hentry]
    exact (hM'.stands_iff hp).symm

end Tree

namespace Completion

variable {paths : Std.TreeSet String} {c c' : Completion}

def Lists (paths : Std.TreeSet String) (S : Set (Registered κ)) : Prop :=
  ∀ text, text ∈ paths ↔ ∃ c ∈ S, c.path.text = text

theorem lists_empty : Lists ∅ (∅ : Set (Registered κ)) := by
  simp [Lists]

theorem Lists.record (h : Lists paths S) (hS : Roster S) {e : Event κ} (hf : e.Fits S) :
    Lists (record paths e) (e.on S) := by
  intro text
  cases e with
  | added d => simp [Completion.record,Event.on,h text,Std.TreeSet.mem_insert]
  | removed p =>
    obtain ⟨d,hd,rfl⟩ := hf
    have hne : ∀ c ∈ S, c.path.text = text → (d.path.text ≠ text ↔ c.path ≠ d.path) := by
      rintro c hc rfl
      refine not_congr ⟨fun he => ?_,fun he => congrArg Path.text he.symm⟩
      exact ((hS.registrable d hd).text_inj (hS.registrable c hc) he).symm
    simp only [Completion.record,Event.on,Std.TreeSet.mem_erase,h text,ne_eq,
      Std.LawfulEqCmp.compare_eq_iff_eq]
    constructor
    · rintro ⟨htext,c,hc,he⟩
      exact ⟨c,⟨hc,(hne c hc he).1 htext⟩,he⟩
    · rintro ⟨c,⟨hc,hp⟩,he⟩
      exact ⟨(hne c hc he).2 hp,c,hc,he⟩

theorem Lists.recordAll (events : List (Event κ)) {paths : Std.TreeSet String}
    {S : Set (Registered κ)} (h : Lists paths S) (hS : Roster S) (hf : Event.FitAll S events) :
    Lists (events.foldl Completion.record paths) (events.foldl Event.on S) := by
  induction events generalizing paths S with
  | nil => exact h
  | cons e events ih => exact ih (h.record hS hf.1) (Event.roster_on hS hf.1) hf.2

theorem Lists.complete_eq (h : Lists c.paths S) (h' : Lists c'.paths S) (start : String) :
    c.complete start = c'.complete start := by
  have hequiv : c.paths.Equiv c'.paths :=
    Std.TreeSet.Equiv.of_forall_mem_iff fun text => (h text).trans (h' text).symm
  simp only [complete,hequiv.toList_eq]

end Completion

namespace Hub

variable {h : Hub κ} {i : Nat}

/-- A namespace that has taken its events lists the registered commands. -/
theorem Good.names_lists (hg : h.Good) {n : Namespace κ}
    (hi : h.followers[i]? = some (.names n)) :
    (n.sync h.registry).1.tree.Lists h.registry.registered := by
  obtain ⟨seq,⟨taken,ht,hd⟩,htr⟩ := hg.follows hi
  have hsync : (n.sync h.registry).1.tree = seq.foldl Tree.apply .empty := by
    rw [← hd.pending,List.foldl_append,← ht]
    rfl
  rw [hsync,← htr.arrives]
  exact (Tree.lists_empty.takesAll seq roster_empty htr.fits).2

theorem Good.completion_lists (hg : h.Good) {c : Completion}
    (hi : h.followers[i]? = some (.completion c)) :
    Completion.Lists (c.sync h.registry).1.paths h.registry.registered := by
  obtain ⟨seq,⟨taken,ht,hd⟩,htr⟩ := hg.follows hi
  have hsync : (c.sync h.registry).1.paths = seq.foldl Completion.record ∅ := by
    rw [← hd.pending,List.foldl_append,← ht]
    rfl
  rw [hsync,← htr.arrives]
  exact Completion.lists_empty.recordAll seq roster_empty htr.fits

theorem closed_step {taken : List (Event κ)} (hi : h.followers[i]? = some (.closed taken))
    (c : Call κ) : (h.step c).followers[i]? = some (.closed taken) := by
  have hmove : ∀ {act : Follower κ → Registry κ → Follower κ × Registry κ} (j : Nat),
      (∀ r, (act (.closed taken) r).1 = .closed taken) →
      (h.move j act).followers[i]? = some (.closed taken) := by
    intro act j ha
    cases hj : h.followers[j]? with
    | none => simpa only [move,hj] using hi
    | some f =>
      rw [move_eq hj]
      by_cases he : j = i
      · subst he
        obtain rfl : f = .closed taken := Option.some.inj (hj.symm.trans hi)
        rw [List.getElem?_set_self (List.getElem?_eq_some_iff.1 hj).1,ha]
      · rwa [List.getElem?_set_ne he]
  cases c with
  | attempt a => exact hi
  | join k => exact (List.getElem?_append_left (List.getElem?_eq_some_iff.1 hi).1).trans hi
  | next j => exact hmove j fun _ => rfl
  | sync j => exact hmove j fun _ => rfl
  | close j => exact hmove j fun _ => rfl

theorem closed_run {taken : List (Event κ)} (hi : h.followers[i]? = some (.closed taken))
    (calls : List (Call κ)) : (h.run calls).followers[i]? = some (.closed taken) := by
  induction calls generalizing h with
  | nil => exact hi
  | cons c calls ih => exact ih (closed_step hi c)

theorem Good.traces_step (hg : h.Good) {seq : List (Event κ)} (htr : h.registry.Traces seq)
    (c : Call κ) : (h.step c).registry.Traces (seq ++ h.published c) := by
  cases c with
  | attempt a =>
    rw [published_attempt]
    exact htr.attempt hg.sound a
  | _ =>
    rw [published_eq_nil rfl,List.append_nil]
    exact htr.congr (h.agree_step _).commands

theorem Good.traces_run (hg : h.Good) {seq : List (Event κ)} (htr : h.registry.Traces seq)
    (calls : List (Call κ)) :
    (h.run calls).registry.Traces (seq ++ h.registry.log (calls.filterMap Call.attempt?)) := by
  induction calls generalizing h seq with
  | nil => rwa [List.filterMap_nil,Registry.log,List.append_nil]
  | cons c calls ih =>
    rw [log_cons,← List.append_assoc]
    exact ih (hg.step c) (hg.traces_step htr c)

theorem pairwise_toList_text {r : Registry κ} (hr : r.Sound) :
    (r.toList.map fun c => c.path.text).Pairwise (· < ·) := by
  rw [Registry.toList,SortedMap.values_eq_map,List.map_map,List.pairwise_map]
  refine r.commands.ordered_keys_toList.imp_of_mem fun {a b} ha hb hab => ?_
  rw [Std.TreeMap.mem_toList_iff_getElem?_eq_some] at ha hb
  simp only [Function.comp_apply,hr.keyed ha,hr.keyed hb]
  exact compareOfLessAndEq_eq_lt.1 hab

theorem attach_lists {r : Registry κ} (hr : r.Sound) :
    (Namespace.attach r).1.tree.Lists r.registered := by
  have htree : (Namespace.attach r).1.tree = (r.toList.map .added).foldl Tree.apply .empty := by
    simp [Namespace.attach,Namespace.sync,Registry.subscribe,Registry.drain]
  rw [htree,← hr.fitAll_replay.2]
  exact (Tree.lists_empty.takesAll _ roster_empty hr.fitAll_replay.1).2

def freshCompletion (r : Registry κ) : Completion :=
  ((Completion.attach r).1.sync (Completion.attach r).2).1

theorem freshCompletion_lists {r : Registry κ} (hr : r.Sound) :
    Completion.Lists (freshCompletion r).paths r.registered := by
  have hpaths : (freshCompletion r).paths =
      (r.toList.map .added).foldl Completion.record ∅ := by
    simp [freshCompletion,Completion.attach,Completion.sync,Registry.subscribe,Registry.drain]
  rw [hpaths,← hr.fitAll_replay.2]
  exact Completion.lists_empty.recordAll _ roster_empty hr.fitAll_replay.1

section Joined

variable (hg : h.Good) (k : Follower.Kind) (calls : List (Call κ))
include hg

theorem Good.keeps_joined :
    ((h.step (.join k)).run calls).Keeps h.followers.length (Follower.join k h.registry).1
      (h.registry.toList.map .added ++ h.registry.log (calls.filterMap Call.attempt?))
      (.close h.followers.length ∈ calls) := by
  have hjoin := Follower.joins_join k h.registry
  have hi : (h.step (.join k)).followers[h.followers.length]? =
      some (Follower.join k h.registry).1 := by
    simp [Hub.step]
  have hkeeps := (hg.step (.join k)).keeps_run hi hjoin.follows calls
  rwa [show (h.step (.join k)).registry.log _ = _ from hjoin.toAgree.log _] at hkeeps

theorem Good.traces_joined :
    ((h.step (.join k)).run calls).registry.Traces
      (h.registry.toList.map .added ++ h.registry.log (calls.filterMap Call.attempt?)) := by
  have hjoin := Follower.joins_join k h.registry
  have htr := (hg.step (.join k)).traces_run (hg.sound.traces_replay.congr hjoin.commands) calls
  rwa [show (h.step (.join k)).registry.log _ = _ from hjoin.toAgree.log _] at htr

end Joined

/-- After every history what a subscriber has taken and what it still would get make up the
commands that were there when it came, in the order of their names, and then the events of the
attempts since that were accepted. They lead to the commands that are there now, and a tree or an
index that has followed the registry from any moment on shows the same as one that starts now. -/
theorem delivers_after (before after : List (Call κ)) :
    let h := empty.run before
    let i := h.followers.length
    let id := h.registry.nextSubscription
    let now := fun k => (h.step (.join k)).run after
    let seq := h.registry.toList.map .added ++
      h.registry.log (after.filterMap Call.attempt?)
    (h.registry.toList.map fun c => c.path.text).Pairwise (· < ·) ∧
    (∀ k, seq.foldl Event.on ∅ = (now k).registry.registered) ∧
    (.close i ∉ after →
      (∃ taken, (now .listener).followers[i]? = some (.listener id taken) ∧
        taken ++ (now .listener).registry.pending id = seq ∧
        ∀ later, (((now .listener).step (.close i)).run later).followers[i]? =
          some (.closed taken)) ∧
      (∃ n, (now .names).followers[i]? = some (.names n) ∧
        (n.sync (now .names).registry).1.tree.entries =
          (Namespace.attach (now .names).registry).1.tree.entries) ∧
      ∃ c, (now .completion).followers[i]? = some (.completion c) ∧ ∀ start,
        (c.sync (now .completion).registry).1.complete start =
          (freshCompletion (now .completion).registry).complete start) := by
  intro h i id now seq
  have hg : h.Good := good_empty.run before
  have hnow : ∀ k, (now k).Good := fun k => (hg.step (.join k)).run after
  refine ⟨pairwise_toList_text hg.sound,fun k => (hg.traces_joined k after).arrives,
    fun hclose => ⟨?_,?_,?_⟩⟩
  · obtain ⟨f,hf,hfol,hstays⟩ := hg.keeps_joined .listener after
    have hs := hstays.resolve_right hclose
    cases f with
    | listener id' taken =>
      obtain rfl : id' = id := hs
      refine ⟨taken,hf,Registry.Delivers.pending hfol,fun later => closed_run ?_ later⟩
      rw [step,move_eq hf]
      exact List.getElem?_set_self (List.getElem?_eq_some_iff.1 hf).1
    | _ => exact hs.elim
  · obtain ⟨f,hf,-,hstays⟩ := hg.keeps_joined .names after
    have hs := hstays.resolve_right hclose
    cases f with
    | names n =>
      refine ⟨n,hf,?_⟩
      exact ((hnow .names).names_lists hf).entries_eq (attach_lists (hnow .names).sound)
    | _ => exact hs.elim
  · obtain ⟨f,hf,-,hstays⟩ := hg.keeps_joined .completion after
    have hs := hstays.resolve_right hclose
    cases f with
    | completion c =>
      refine ⟨c,hf,fun start => ?_⟩
      exact ((hnow .completion).completion_lists hf).complete_eq
        (freshCompletion_lists (hnow .completion).sound) start
    | _ => exact hs.elim

def early : List (Call Unit) :=
  [.attempt (.register (.named "/b" ())),.attempt (.register (.named "/a/x" ())),
    .attempt (.register (.named "/a+" ())),.join .names]

def late : List (Call Unit) :=
  [.attempt (.register (.named "/b/y" ())),.next 1,.attempt (.unregister "a/x"),.sync 0,
    .attempt (.register (.named "/a" ()))]

/-- Three names were there, and two events follow them. -/
theorem delivers_after_early_late :
    let h := empty.run early
    let now := (h.step (.join .listener)).run late
    .close h.followers.length ∉ late ∧ ∃ taken,
      now.followers[h.followers.length]? = some (.listener h.registry.nextSubscription taken) ∧
      taken.length = 1 ∧ (now.registry.pending h.registry.nextSubscription).length = 4 ∧
      (taken ++ now.registry.pending h.registry.nextSubscription).foldl Event.on ∅ =
        now.registry.registered := by
  intro h now
  have hlength : h.followers.length = 1 := by decide +kernel
  have hclose : .close h.followers.length ∉ late := by simp [hlength,late]
  obtain ⟨-,hfold,hopen⟩ := delivers_after early late
  obtain ⟨⟨taken,hf,hseq,-⟩,-⟩ := hopen hclose
  have hpending : (now.registry.pending h.registry.nextSubscription).length = 4 := by
    decide +kernel
  have hall : (h.registry.toList.map Event.added ++
      h.registry.log (late.filterMap Call.attempt?)).length = 5 := by
    decide +kernel
  have hcount : taken.length = 1 := by
    rw [← hseq,List.length_append,hpending] at hall
    omega
  exact ⟨hclose,taken,hf,hcount,hpending,hseq ▸ hfold .listener⟩

end Hub
end CommandShell
