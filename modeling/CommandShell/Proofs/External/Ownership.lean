import CommandShell.Proofs.External.Rescan

/-! Programs in a registry that others use as well.
Whoever looks for programs remembers the names under which it registered them. So a rescan removes
commands of its own, or one that came under such a name after others had removed its own. -/
namespace CommandShell

variable {κ : Type}

/-- A registry with programs in one group, and what became of the commands of these programs. -/
structure Shared (κ : Type) where
  external : External
  registry : Registry κ
  /-- What the rescans have registered. -/
  own : Set (Registered κ)
  /-- What others have removed of it. -/
  evicted : Set (Registered κ)

namespace Shared

/-- Somebody's turn. The others may do to the registry what they like. -/
inductive Turn (κ : Type)
  | rescan (directories : List Directory)
  | other (a : Attempt κ)

def start (x : External) : Shared κ := ⟨x,.empty,∅,∅⟩

variable (action : String → κ)

def rescanned (t : Shared κ) (directories : List Directory) : External.Progress κ :=
  t.external.rescan action t.registry (Programs.scan directories)

def step (t : Shared κ) : Turn κ → Shared κ
  | .rescan directories =>
    let p := t.rescanned action directories
    { t with
      external := p.external
      registry := p.registry
      own := t.own ∪ (p.registry.registered \ t.registry.registered) }
  | .other a =>
    let r := t.registry.after a
    { t with
      registry := r
      evicted := t.evicted ∪ (t.own ∩ (t.registry.registered \ r.registered)) }

def run (t : Shared κ) (history : List (Turn κ)) : Shared κ := history.foldl (step action) t

/-- For every known program a command was registered, which is there or was removed by others. -/
structure Good (t : Shared κ) : Prop where
  rooted : t.external.group.Rooted
  sound : t.registry.Sound
  numbered : t.registry.Numbered
  valid : t.external.known.Valid
  kept : ∀ name ∈ t.external.known, ∃ e ∈ t.own, e.path = t.external.group.child name ∧
    (e ∈ t.registry.registered ∨ e ∈ t.evicted)

variable {t : Shared κ} {directories : List Directory}

theorem good_start {group : String} {x : External} (hx : External.named group = .ok x) :
    (start x : Shared κ).Good := by
  unfold External.named at hx
  cases hp : Path.parse group with
  | error e => simp [hp,Except.map] at hx
  | ok p =>
    obtain rfl : (⟨p.fromRoot,∅⟩ : External) = x := by simpa [hp,Except.map] using hx
    refine ⟨Path.Parsed.rooted ⟨group,hp⟩,Registry.sound_empty,?_,Programs.valid_empty,?_⟩
    · intro c hc
      obtain ⟨key,hk⟩ := Registry.mem_registered.1 hc
      simp [start,Registry.empty] at hk
    · simp [start]

section Rescan

variable (h : t.Good)
include h

theorem Good.rescan_cases (directories : List Directory) : ∃ p,
    External.Drops (t.external.stale (Programs.scan directories)) ⟨t.external,t.registry,⟨0,0⟩⟩ p ∧
      External.Adds p (t.rescanned action directories) :=
  t.external.rescan_cases action h.sound h.numbered h.rooted h.valid
    (Programs.valid_scan directories)

/-- What a rescan removes is what stands under the names of the stale programs. -/
theorem Good.gone_iff {c : Registered κ} (hc : c ∈ t.registry.registered) :
    c ∉ (t.rescanned action directories).registry.registered ↔
      ∃ name ∈ t.external.stale (Programs.scan directories),
        c.path = t.external.group.child name := by
  obtain ⟨p,hd,ha⟩ := h.rescan_cases action directories
  have hmem : c ∈ (t.rescanned action directories).registry.registered ↔
      c ∈ p.registry.registered := by
    refine ⟨fun hm => ?_,fun hm => ha.registered hm⟩
    by_contra hn
    exact ha.notMem h.numbered hd.nextSerial hm hn hc
  rw [hmem,hd.registered]
  simp [hc]

theorem Good.rescan (directories : List Directory) :
    (t.step action (.rescan directories)).Good := by
  obtain ⟨p,hd,ha⟩ := h.rescan_cases action directories
  have hgroup : (t.rescanned action directories).external.group = t.external.group :=
    ha.group.trans hd.group
  have hnumbered : p.registry.Numbered := hd.numbered h.numbered
  refine ⟨?_,ha.sound,ha.numbered hnumbered,fun name hm => ?_,fun name hm => ?_⟩
  · exact hgroup.symm ▸ h.rooted
  · rcases ha.known name hm with hm | ⟨hv,-⟩
    · exact h.valid name ((hd.known name).1 hm).1
    · exact hv
  · simp only [step,hgroup]
    rcases ha.known name hm with hm | ⟨-,c,hc,hn,hpath⟩
    · obtain ⟨hknown,hfresh⟩ := (hd.known name).1 hm
      obtain ⟨e,hown,hpath,hthere⟩ := h.kept name hknown
      refine ⟨e,.inl hown,hpath,hthere.imp_left fun hreg => ?_⟩
      by_contra hgone
      obtain ⟨other,hother,he⟩ := (h.gone_iff action hreg).1 hgone
      rw [hpath,Path.child_inj] at he
      exact hfresh (he ▸ hother)
    · have hnew : c ∉ t.registry.registered := ha.notMem h.numbered hd.nextSerial hc hn
      exact ⟨c,.inr ⟨hc,hnew⟩,hpath.trans (by rw [hd.group]),.inl hc⟩

end Rescan

theorem Good.other (h : t.Good) (a : Attempt κ) : (t.step action (.other a)).Good := by
  refine ⟨h.rooted,h.sound.after a,h.sound.numbered_after h.numbered a,h.valid,fun name hm => ?_⟩
  obtain ⟨e,hown,hpath,hthere⟩ := h.kept name hm
  refine ⟨e,hown,hpath,?_⟩
  rcases hthere with hreg | hev
  · by_cases hstays : e ∈ (t.registry.after a).registered
    · exact .inl hstays
    · exact .inr (.inr ⟨hown,hreg,hstays⟩)
  · exact .inr (.inl hev)

theorem Good.run (h : t.Good) (history : List (Turn κ)) : (t.run action history).Good := by
  induction history generalizing t with
  | nil => exact h
  | cons turn history ih =>
    cases turn with
    | rescan directories => exact ih (h.rescan action directories)
    | other a => exact ih (h.other action a)

/-- After every history a rescan removes exactly the commands under the names of the programs that
are stale. A command that is not its own stays, unless others had removed its own one of the same
name. -/
theorem rescan_spares (group : String) {x : External} (hx : External.named group = .ok x)
    (history : List (Turn κ)) (directories : List Directory) :
    let t := (start x).run action history
    let after := (t.step action (.rescan directories)).registry
    (∀ c ∈ t.registry.registered, c ∉ after.registered ↔
      ∃ name ∈ t.external.stale (Programs.scan directories),
        c.path = t.external.group.child name) ∧
    ∀ c ∈ t.registry.registered, c ∉ t.own → (∀ e ∈ t.evicted, e.path ≠ c.path) →
      c ∈ after.registered := by
  intro t after
  have h : t.Good := (good_start hx).run action history
  refine ⟨fun c hc => h.gone_iff action hc,fun c hc hown hev => ?_⟩
  by_contra hgone
  obtain ⟨name,hstale,hpath⟩ := (h.gone_iff action hc).1 hgone
  obtain ⟨e,heown,hepath,hthere⟩ := h.kept name (External.mem_of_mem_stale hstale)
  rcases hthere with hreg | he
  · have hec : e = c := h.sound.roster.apart e hreg c hc (by rw [hepath,hpath])
    exact hown (hec ▸ heown)
  · exact hev e he (hepath.trans hpath.symm)

def shelf (name : String) : Directory := ⟨"a",some [⟨Text.encode name,true⟩]⟩

def ext : External := ⟨⟨true,["ext"]⟩,∅⟩

theorem named_ext : External.named "/ext" = .ok ext := by
  have hparse : Path.parse "/ext" = .ok ⟨true,["ext"]⟩ := by decide +kernel
  have hroot : (⟨true,["ext"]⟩ : Path).fromRoot = ⟨true,["ext"]⟩ := by decide +kernel
  rw [External.named,hparse,Except.map,hroot]
  rfl

def settled : List (Turn Unit) :=
  [.rescan [shelf "late"],.other (.register (.named "/ext/hello" ()))]

/-- When the one program has made room for the other, the command of the first is removed, and the
one that has the name of the second stays. -/
theorem rescan_spares_settled :
    let t := (start ext).run (fun _ => ()) settled
    let after := (t.step (fun _ => ()) (.rescan [shelf "hello"])).registry
    t.external.stale (Programs.scan [shelf "hello"]) = ["late"] ∧
    ∃ c ∈ t.registry.registered, c.path.text = "/ext/hello" ∧ c ∉ t.own ∧
      c ∈ after.registered := by
  intro t after
  have hstale : t.external.stale (Programs.scan [shelf "hello"]) = ["late"] := by decide +kernel
  have htexts : t.registry.toList.map (·.path.text) = ["/ext/hello","/ext/late"] := by
    decide +kernel
  have hc : "/ext/hello" ∈ t.registry.toList.map (·.path.text) := by simp [htexts]
  obtain ⟨c,hmem,htext⟩ := List.mem_map.1 hc
  have hlate : ∀ e ∈ ((start ext).step (fun _ => ()) (.rescan [shelf "late"])).registry.toList,
      e.path.text = "/ext/late" := by
    decide +kernel
  have hown : ∀ e ∈ t.own, e.path ≠ c.path := by
    rintro e (he | ⟨he,-⟩) hpath
    · cases he
    · rw [← hpath,hlate e he] at htext
      simp at htext
  have hevicted : ∀ e ∈ t.evicted, e.path ≠ c.path := by
    rintro e (he | ⟨he,-⟩)
    · cases he
    · exact hown e he
  have hnot : c ∉ t.own := fun hm => hown c hm rfl
  have hspares := (rescan_spares (fun _ => ()) "/ext" named_ext settled [shelf "hello"]).2
  exact ⟨hstale,c,hmem,htext,hnot,hspares c hmem hnot hevicted⟩

def replaced : List (Turn Unit) :=
  [.rescan [shelf "hello"],.other (.unregister "/ext/hello"),
    .other (.register (.named "/ext/hello" ()))]

/-- The command of the others is removed. -/
theorem rescan_takes_replaced : External.named "/ext" = .ok ext ∧
    let t := (start ext).run (fun _ => ()) replaced
    let after := (t.step (fun _ => ()) (.rescan [])).registry
    ∃ c ∈ t.registry.registered, c.path.text = "/ext/hello" ∧ c ∉ t.own ∧
      c ∉ after.registered := by
  refine ⟨named_ext,?_⟩
  intro t after
  have hserials : t.registry.toList.map Registered.serial = [1] := by decide +kernel
  have htexts : ∀ c ∈ t.registry.toList, c.path.text = "/ext/hello" := by decide +kernel
  have hafter : after.toList.map Registered.serial = [] := by decide +kernel
  obtain ⟨c,hlist,hserial⟩ := List.map_eq_singleton_iff.1 hserials
  have hmem : c ∈ t.registry.toList := by simp [hlist]
  have hzero : ∀ e ∈ ((start ext).step (fun _ => ()) (.rescan [shelf "hello"])).registry.toList,
      e.serial = 0 := by
    decide +kernel
  have hown : ∀ e ∈ t.own, e.serial = 0 := by
    rintro e (he | ⟨he,-⟩)
    · cases he
    · exact hzero e he
  refine ⟨c,hmem,htexts c hmem,fun hm => ?_,fun hm => ?_⟩
  · rw [hown c hm] at hserial
    cases hserial
  · have hnil : c ∈ after.toList := hm
    rw [List.map_eq_nil_iff.1 hafter] at hnil
    cases hnil

end Shared
end CommandShell
