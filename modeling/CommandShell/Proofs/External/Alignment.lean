import CommandShell.Proofs.External.Ownership

/-! How far a registry agrees with what was found.
A rescan goes by the programs that it remembers. Where their commands are still there, it leaves
each program that was found registered or refused, and doing it again changes nothing. -/
namespace CommandShell

variable {κ : Type}

namespace Registry

variable {r r' : Registry κ} {d : Descriptor κ}

theorem Sound.refused_mono (hr : r.Sound) (hr' : r'.Sound) (hsub : r.registered ⊆ r'.registered)
    {e : RegistryError} (he : r.register d = .error e) : ∃ e', r'.register d = .error e' := by
  cases h' : r'.register d with
  | error e' => exact ⟨e',rfl⟩
  | ok p =>
    obtain ⟨hv,ha⟩ := (hr'.judges d).accepted.1 ⟨p.1,p.2,h'⟩
    obtain ⟨c,s,hok⟩ := (hr.judges d).accepted.2 ⟨hv,fun c hc => ha c (hsub hc)⟩
    rw [he] at hok
    cases hok

theorem Sound.serials_after (h : r.Sound) (a : Attempt κ) :
    r.nextSerial ≤ (r.after a).nextSerial ∧
      ∀ c ∈ (r.after a).registered, c ∉ r.registered → r.nextSerial ≤ c.serial := by
  cases a with
  | register d =>
    cases hok : r.register d with
    | error e =>
      have hafter : r.after (.register d) = r := by simp [Registry.after,attempt,hok,Except.map]
      rw [hafter]
      exact ⟨le_rfl,fun c hc hn => absurd hc hn⟩
    | ok p =>
      have hafter : r.after (.register d) = p.2 := by simp [Registry.after,attempt,hok,Except.map]
      obtain ⟨hc,hserial⟩ := serial_of_register hok
      rw [hafter,hserial,(changes_of_register h hok).registered]
      refine ⟨Nat.le_succ _,fun c hm hn => ?_⟩
      rcases hm with rfl | hm
      · rw [hc]
      · exact absurd hm hn
  | unregister name =>
    cases hok : r.unregister name with
    | error e =>
      have hafter : r.after (.unregister name) = r := by
        simp [Registry.after,attempt,hok,Except.map]
      rw [hafter]
      exact ⟨le_rfl,fun c hc hn => absurd hc hn⟩
    | ok p =>
      have hafter : r.after (.unregister name) = p.2 := by
        simp [Registry.after,attempt,hok,Except.map]
      rw [hafter,nextSerial_of_unregister hok,(changes_of_unregister h hok).registered]
      exact ⟨le_rfl,fun c hm hn => absurd hm.1 hn⟩

end Registry

namespace External

variable {p p' p'' : Progress κ} {x : External} {action : String → κ} {name file : String}
  {names : List String} {f : String × String} {fs : List (String × String)}

def SameFile (file file' : String) : Prop := fileSteps file = fileSteps file'

theorem descriptor_congr {y : External} (h : y.group = x.group) :
    y.descriptor action name file = x.descriptor action name file := by
  simp only [descriptor,commandPath,h]

theorem file_of_descriptor {name' file' : String}
    (h : x.descriptor action name file = x.descriptor action name' file') : file = file' :=
  Option.some.inj (congrArg Descriptor.description h)

theorem known_dropProgram (p : Progress κ) (name other : String) :
    (dropProgram p name).external.known[other]? =
      if other = name then none else p.external.known[other]? := by
  have herase : (p.external.known.erase name)[other]? =
      if other = name then none else p.external.known[other]? := by
    rw [Std.TreeMap.getElem?_erase]
    exact if_congr (Std.LawfulEqCmp.compare_eq_iff_eq.trans eq_comm) rfl rfl
  rw [dropProgram_eq]
  split <;> exact herase

theorem known_foldl_dropProgram (names : List String) (p : Progress κ) (name : String) :
    (names.foldl dropProgram p).external.known[name]? =
      if name ∈ names then none else p.external.known[name]? := by
  induction names generalizing p with
  | nil => simp
  | cons other names ih =>
    rw [List.foldl_cons,ih,known_dropProgram]
    by_cases hm : name ∈ names <;> by_cases he : name = other <;> simp [hm,he]

theorem mem_stale_iff {found : Programs} : name ∈ x.stale found ↔ ∃ file,
    x.known[name]? = some file ∧ ∀ file', found[name]? = some file' → ¬SameFile file' file := by
  simp only [stale,List.mem_map,List.mem_filter,Prod.exists,exists_and_right,exists_eq_right,
    Std.TreeMap.mem_toList_iff_getElem?_eq_some,decide_eq_true_eq]
  refine exists_congr fun file => and_congr_right fun _ => ?_
  cases found[name]? <;> simp [SameFile]

/-- The programs `fs` were gone through: each is known now, or its command is refused. -/
structure Brings (action : String → κ) (fs : List (String × String)) (p p' : Progress κ) :
    Prop where
  adds : Adds p p'
  kept : ∀ name file : String, p.external.known[name]? = some file →
    p'.external.known[name]? = some file
  learnt : ∀ name file : String, p'.external.known[name]? = some file →
    p.external.known[name]? = some file ∨ (name,file) ∈ fs ∧ ∃ c ∈ p'.registry.registered,
      c ∉ p.registry.registered ∧ c.descriptor = p.external.descriptor action name file
  fresh : ∀ c ∈ p'.registry.registered, c ∉ p.registry.registered →
    ∃ name file : String, p.external.known[name]? = none ∧
      p'.external.known[name]? = some file ∧ c.descriptor = p.external.descriptor action name file
  settled : ∀ f ∈ fs, f.1 ∈ p'.external.known ∨
    ∃ e, p'.registry.register (p.external.descriptor action f.1 f.2) = .error e

theorem brings_nil (hp : p.registry.Sound) : Brings action [] p p :=
  ⟨adds_refl hp,fun _ _ h => h,fun _ _ h => .inl h,fun _ hc hn => absurd hc hn,by simp⟩

theorem Brings.cons (h : Brings action [f] p p') (h' : Brings action fs p' p'') :
    Brings action (f :: fs) p p'' := by
  have hdescriptor : ∀ name file, p'.external.descriptor action name file =
      p.external.descriptor action name file := fun _ _ => descriptor_congr h.adds.group
  have hsub : p'.registry.registered ⊆ p''.registry.registered := h'.adds.registered
  refine ⟨h.adds.trans h'.adds,fun name file hk => h'.kept _ _ (h.kept _ _ hk),?_,?_,?_⟩
  · intro name file hk
    rcases h'.learnt name file hk with hk | ⟨hm,c,hc,hn,hd⟩
    · rcases h.learnt name file hk with hk | ⟨hm,c,hc,hn,hd⟩
      · exact .inl hk
      · exact .inr ⟨List.mem_cons.2 (.inl (List.mem_singleton.1 hm)),c,hsub hc,hn,hd⟩
    · exact .inr ⟨List.mem_cons_of_mem _ hm,c,hc,fun hc' => hn (h.adds.registered hc'),
        hd.trans (hdescriptor name file)⟩
  · intro c hc hn
    by_cases hc' : c ∈ p'.registry.registered
    · obtain ⟨name,file,hnone,hk,hd⟩ := h.fresh c hc' hn
      exact ⟨name,file,hnone,h'.kept _ _ hk,hd⟩
    · obtain ⟨name,file,hnone,hk,hd⟩ := h'.fresh c hc hc'
      refine ⟨name,file,Option.eq_none_iff_forall_ne_some.2 fun old ho => ?_,hk,
        hd.trans (hdescriptor name file)⟩
      rw [h.kept _ _ ho] at hnone
      cases hnone
  · intro g hg
    rcases List.mem_cons.1 hg with rfl | hg
    · rcases h.settled g (List.mem_singleton_self g) with hk | ⟨e,he⟩
      · rw [Std.TreeMap.mem_iff_isSome_getElem?,Option.isSome_iff_exists] at hk ⊢
        obtain ⟨file,hk⟩ := hk
        exact .inl ⟨file,h'.kept _ _ hk⟩
      · exact .inr (h.adds.sound.refused_mono h'.adds.sound hsub he)
    · rcases h'.settled g hg with hk | ⟨e,he⟩
      · exact .inl hk
      · exact .inr ⟨e,hdescriptor g.1 g.2 ▸ he⟩

theorem brings_addProgram (action : String → κ) (hp : p.registry.Sound)
    (hn : p.registry.Numbered) (hg : p.external.group.Rooted)
    (hv : Segment.isValid f.1 = true) : Brings action [f] p (addProgram action p f.1 f.2) := by
  obtain ⟨name,file⟩ := f
  have hadds := adds_addProgram action hp hn hg hv file
  unfold addProgram at hadds ⊢
  split_ifs at hadds ⊢ with hk
  · refine ⟨hadds,fun _ _ h => h,fun _ _ h => .inl h,fun _ hc hn => absurd hc hn,fun g hm => ?_⟩
    obtain rfl := List.mem_singleton.1 hm
    exact .inl (Std.TreeMap.contains_iff_mem.1 hk)
  · have hnew : ∀ other, (p.external.known.insert name file)[other]? =
        if name = other then some file else p.external.known[other]? := by
      intro other
      rw [Std.TreeMap.getElem?_insert]
      exact if_congr Std.LawfulEqCmp.compare_eq_iff_eq rfl rfl
    have hnone : p.external.known[name]? = none :=
      Std.TreeMap.getElem?_eq_none fun hm => hk (Std.TreeMap.contains_iff_mem.2 hm)
    cases hr : p.registry.register (p.external.descriptor action name file) with
    | error e =>
      simp only [hr] at hadds ⊢
      refine ⟨hadds,fun _ _ h => h,fun _ _ h => .inl h,fun _ hc hn => absurd hc hn,fun g hm => ?_⟩
      obtain rfl := List.mem_singleton.1 hm
      exact .inr ⟨e,hr⟩
    | ok q =>
      obtain ⟨c,r⟩ := q
      simp only [hr] at hadds ⊢
      have hc := Registry.changes_of_register hp hr
      obtain ⟨rfl,-⟩ := Registry.serial_of_register hr
      have hnotMem : (⟨p.registry.nextSerial,p.external.descriptor action name file⟩ :
          Registered κ) ∉ p.registry.registered := fun hm => lt_irrefl _ (hn _ hm)
      refine ⟨hadds,fun other old ho => ?_,fun other new ho => ?_,fun d hd hnd => ?_,fun g hm => ?_⟩
      · have hne : name ≠ other := fun he => by simp [← he,hnone] at ho
        rw [hnew,if_neg hne]
        exact ho
      · rw [hnew] at ho
        split_ifs at ho with he
        · subst he
          obtain rfl := Option.some.inj ho
          refine .inr ⟨List.mem_singleton_self _,_,?_,hnotMem,rfl⟩
          rw [hc.registered]
          exact Set.mem_insert _ _
        · exact .inl ho
      · rw [hc.registered] at hd
        rcases hd with rfl | hd
        · exact ⟨name,file,hnone,by rw [hnew,if_pos rfl],rfl⟩
        · exact absurd hd hnd
      · obtain rfl := List.mem_singleton.1 hm
        exact .inl (Std.TreeMap.mem_insert_self)

theorem brings_foldl (action : String → κ) (hp : p.registry.Sound) (hn : p.registry.Numbered)
    (hg : p.external.group.Rooted) (hv : ∀ f ∈ fs, Segment.isValid f.1 = true) :
    Brings action fs p (fs.foldl (fun p f => addProgram action p f.1 f.2) p) := by
  induction fs generalizing p with
  | nil => exact brings_nil hp
  | cons f fs ih =>
    have hone := brings_addProgram action hp hn hg (hv f List.mem_cons_self)
    exact hone.cons (ih hone.adds.sound (hone.adds.numbered hn) (hone.adds.group ▸ hg)
      fun g hm => hv g (List.mem_cons_of_mem _ hm))

/-- What is known after the first half of a rescan is what was found again where it was. -/
theorem rescan_brings (x : External) (action : String → κ) {r : Registry κ} {found : Programs}
    (hr : r.Sound) (hn : r.Numbered) (hg : x.group.Rooted)
    (hv : x.known.Valid) (hf : found.Valid) :
    ∃ p, Drops (x.stale found) ⟨x,r,⟨0,0⟩⟩ p ∧
      Brings action found.toList p (x.rescan action r found) ∧
      ∀ name file : String, p.external.known[name]? = some file ↔
        x.known[name]? = some file ∧ ∃ file', found[name]? = some file' ∧ SameFile file' file := by
  have hdrops : Drops (x.stale found) ⟨x,r,⟨0,0⟩⟩
      ((x.stale found).foldl dropProgram ⟨x,r,⟨0,0⟩⟩) :=
    drops_foldl hr hg fun name hm => hv name (mem_of_mem_stale hm)
  refine ⟨_,hdrops,brings_foldl action hdrops.sound (hdrops.numbered hn) (hdrops.group ▸ hg) ?_,?_⟩
  · rintro ⟨name,file⟩ hm
    rw [Std.TreeMap.mem_toList_iff_getElem?_eq_some] at hm
    refine hf name ?_
    rw [Std.TreeMap.mem_iff_isSome_getElem?,hm]
    rfl
  · intro name file
    rw [known_foldl_dropProgram]
    by_cases hm : name ∈ x.stale found
    · rw [if_pos hm]
      obtain ⟨old,hk,hmoved⟩ := mem_stale_iff.1 hm
      refine ⟨nofun,fun ⟨hk',file',hf',hsame⟩ => ?_⟩
      obtain rfl := Option.some.inj (hk.symm.trans hk')
      exact absurd hsame (hmoved file' hf')
    · rw [if_neg hm]
      refine ⟨fun hk => ⟨hk,?_⟩,And.left⟩
      by_contra hno
      exact hm (mem_stale_iff.2 ⟨file,hk,fun file' hf' hsame => hno ⟨file',hf',hsame⟩⟩)

theorem rescan_eq_self {r : Registry κ} {found : Programs} (hstale : x.stale found = [])
    (h : ∀ f ∈ found.toList, f.1 ∈ x.known ∨
      ∃ e, r.register (x.descriptor action f.1 f.2) = .error e) :
    x.rescan action r found = ⟨x,r,⟨0,0⟩⟩ := by
  unfold rescan
  simp only [hstale,List.foldl_nil]
  generalize found.toList = fs at h
  induction fs with
  | nil => rfl
  | cons f fs ih =>
    have hsame : addProgram action ⟨x,r,⟨0,0⟩⟩ f.1 f.2 = ⟨x,r,⟨0,0⟩⟩ := by
      unfold addProgram
      rcases h f List.mem_cons_self with hk | ⟨e,he⟩
      · simp [Std.TreeMap.contains_iff_mem.2 hk]
      · simp [he]
    rw [List.foldl_cons,hsame]
    exact ih fun g hm => h g (List.mem_cons_of_mem _ hm)

end External

namespace Shared

variable {t : Shared κ} {action : String → κ} {directories : List Directory} {name : String}

/-- What the rescans have registered and nobody has removed. -/
def held (t : Shared κ) : Set (Registered κ) := t.own ∩ t.registry.registered

/-- The program is remembered, but its command is gone. -/
def Lost (t : Shared κ) (name : String) : Prop :=
  name ∈ t.external.known ∧ ∀ c ∈ t.held, c.path ≠ t.external.group.child name

/-- The program has been lost, and it was found again where it was. -/
def Missed (t : Shared κ) (found : Programs) (name : String) : Prop :=
  t.Lost name ∧ name ∉ t.external.stale found

def HasCommand (t : Shared κ) (name : String) : Prop :=
  ∃ c ∈ t.registry.registered, c.path = t.external.group.child name

/-- The program cannot be registered, because its group is no name for groups or because a command
of somebody else is in the way. -/
def Refuses (action : String → κ) (t : Shared κ) (name file : String) : Prop :=
  ∃ e, t.registry.register (t.external.descriptor action name file) = .error e ∧
    ((∃ s ∈ t.external.group.segments, Segment.isValid s = false) ∧
        e = .invalidName (t.external.group.child name).text ∨
      ∃ c ∈ t.registry.registered, c ∉ t.own ∧
        e = .pathConflict (t.external.group.child name).text c.path.text)

/-- The command is the one of a program that was found in a file. -/
def IsFound (action : String → κ) (t : Shared κ) (found : Programs) (name file : String)
    (c : Registered κ) : Prop :=
  c.descriptor = t.external.descriptor action name file ∧
    ∃ file', found[name]? = some file' ∧ External.SameFile file' file

/-- Each command that is held belongs to a known program. -/
structure Tied (action : String → κ) (t : Shared κ) : Prop where
  good : t.Good
  numbered : ∀ c ∈ t.own, c.serial < t.registry.nextSerial
  known : ∀ c ∈ t.held, ∃ name file : String, t.external.known[name]? = some file ∧
    c.descriptor = t.external.descriptor action name file

theorem tied_start {group : String} {x : External} (hx : External.named group = .ok x) :
    (start x : Shared κ).Tied action := by
  refine ⟨good_start hx,fun c hc => ?_,fun c hc => ?_⟩
  · cases hc
  · cases hc.1

theorem lost_evicted (h : t.Good) (hl : t.Lost name) :
    ∃ e ∈ t.evicted, e.path = t.external.group.child name := by
  obtain ⟨e,hown,hpath,hreg | hev⟩ := h.kept name hl.1
  · exact absurd hpath (hl.2 e ⟨hown,hreg⟩)
  · exact ⟨e,hev,hpath⟩

section

variable (h : t.Tied action)
include h

theorem Tied.isValid {file : String} (hk : t.external.known[name]? = some file) :
    Segment.isValid name = true :=
  h.good.valid name (by rw [Std.TreeMap.mem_iff_isSome_getElem?,hk]; rfl)

theorem Tied.path_eq {c : Registered κ} {file : String}
    (hk : t.external.known[name]? = some file)
    (hd : c.descriptor = t.external.descriptor action name file) :
    c.path = t.external.group.child name := by
  rw [Registered.path,hd]
  exact External.path_descriptor _ h.good.rooted (h.isValid hk) action file

theorem Tied.known_of_path {c : Registered κ} (hc : c ∈ t.held)
    (hp : c.path = t.external.group.child name) :
    ∃ file : String, t.external.known[name]? = some file ∧
      c.descriptor = t.external.descriptor action name file := by
  obtain ⟨other,file,hk,hd⟩ := h.known c hc
  obtain rfl : other = name := Path.child_inj.1 ((h.path_eq hk hd).symm.trans hp)
  exact ⟨file,hk,hd⟩

theorem Tied.other (a : Attempt κ) : (t.step action (.other a)).Tied action := by
  have hnew := h.good.sound.serials_after a
  refine ⟨h.good.other action a,fun c hc => (h.numbered c hc).trans_le hnew.1,fun c hc => ?_⟩
  by_cases hold : c ∈ t.registry.registered
  · exact h.known c ⟨hc.1,hold⟩
  · exact absurd (h.numbered c hc.1) (hnew.2 c hc.2 hold).not_gt

theorem Tied.rescan_brings (directories : List Directory) : ∃ p,
    External.Drops (t.external.stale (Programs.scan directories)) ⟨t.external,t.registry,⟨0,0⟩⟩ p ∧
      External.Brings action (Programs.scan directories).toList p
        (t.rescanned action directories) ∧
      ∀ name file : String, p.external.known[name]? = some file ↔
        t.external.known[name]? = some file ∧
          ∃ file', (Programs.scan directories)[name]? = some file' ∧
            External.SameFile file' file :=
  t.external.rescan_brings action h.good.sound h.good.numbered h.good.rooted h.good.valid
    (Programs.valid_scan directories)

theorem Tied.rescan (directories : List Directory) :
    (t.step action (.rescan directories)).Tied action := by
  obtain ⟨p,hd,hb,hk⟩ := h.rescan_brings directories
  have hgroup : (t.rescanned action directories).external.group = t.external.group :=
    hb.adds.group.trans hd.group
  have hle : t.registry.nextSerial ≤ (t.rescanned action directories).registry.nextSerial :=
    hd.nextSerial ▸ hb.adds.nextSerial
  refine ⟨h.good.rescan action directories,fun c hc => ?_,fun c hc => ?_⟩
  · rcases hc with hc | hc
    · exact (h.numbered c hc).trans_le hle
    · exact hb.adds.numbered (hd.numbered h.good.numbered) c hc.1
  · -- what was held before is of a program that is not stale, and all else is new
    obtain ⟨hown,hreg⟩ := hc
    by_cases hmid : c ∈ p.registry.registered
    · have hold : c ∈ t.registry.registered := by
        rw [hd.registered] at hmid
        exact hmid.1
      have hheld : c ∈ t.held := ⟨hown.resolve_right fun hn => hn.2 hold,hold⟩
      obtain ⟨name,file,hknown,hdesc⟩ := h.known c hheld
      refine ⟨name,file,hb.kept _ _ ((hk _ _).2 ⟨hknown,?_⟩),?_⟩
      · by_contra hno
        have hstale : name ∈ t.external.stale (Programs.scan directories) :=
          External.mem_stale_iff.2 ⟨file,hknown,fun file' hf hs => hno ⟨file',hf,hs⟩⟩
        rw [hd.registered] at hmid
        exact hmid.2 name hstale (h.path_eq hknown hdesc)
      · exact hdesc.trans (External.descriptor_congr hgroup).symm
    · obtain ⟨name,file,-,hknown,hdesc⟩ := hb.fresh c hreg hmid
      exact ⟨name,file,hknown,hdesc.trans (External.descriptor_congr hb.adds.group).symm⟩

end

theorem Tied.run (h : t.Tied action) (history : List (Turn κ)) :
    (t.run action history).Tied action := by
  induction history generalizing t with
  | nil => exact h
  | cons turn history ih =>
    cases turn with
    | rescan directories => exact ih (h.rescan directories)
    | other a => exact ih (h.other a)

section

variable (h : t.Tied action)
include h

theorem Tied.found_of_known {file : String}
    (hk : (t.step action (.rescan directories)).external.known[name]? = some file) :
    ∃ file', (Programs.scan directories)[name]? = some file' ∧ External.SameFile file' file := by
  obtain ⟨p,-,hb,hmid⟩ := h.rescan_brings directories
  rcases hb.learnt name file hk with hold | ⟨hm,-⟩
  · exact ((hmid name file).1 hold).2
  · exact ⟨file,Std.TreeMap.mem_toList_iff_getElem?_eq_some.1 hm,rfl⟩

theorem Tied.isFound_of_held {c : Registered κ}
    (hc : c ∈ (t.step action (.rescan directories)).held) : ∃ name file,
      (t.step action (.rescan directories)).external.known[name]? = some file ∧
        IsFound action (t.step action (.rescan directories)) (Programs.scan directories)
          name file c := by
  obtain ⟨name,file,hk,hd⟩ := (h.rescan directories).known c hc
  exact ⟨name,file,hk,hd,h.found_of_known hk⟩

/-- A program that was not missed is known exactly if the rescans have its command registered. -/
theorem Tied.known_iff (hm : ¬t.Missed (Programs.scan directories) name) (file : String) :
    (t.step action (.rescan directories)).external.known[name]? = some file ↔
      ∃ c ∈ (t.step action (.rescan directories)).held,
        IsFound action (t.step action (.rescan directories)) (Programs.scan directories)
          name file c := by
  constructor
  · intro hk
    have hfound := h.found_of_known hk
    obtain ⟨p,hd,hb,hmid⟩ := h.rescan_brings directories
    rcases hb.learnt name file hk with hold | ⟨-,c,hc,hn,hdesc⟩
    · -- it was known before and is not stale, so its command was and is there
      obtain ⟨hknown,file',hf,hsame⟩ := (hmid name file).1 hold
      have hstale : name ∉ t.external.stale (Programs.scan directories) := by
        intro hs
        obtain ⟨old,ho,hmoved⟩ := External.mem_stale_iff.1 hs
        obtain rfl := Option.some.inj (hknown.symm.trans ho)
        exact hmoved file' hf hsame
      have hlost : ¬t.Lost name := fun hl => hm ⟨hl,hstale⟩
      have hmem : name ∈ t.external.known := by
        rw [Std.TreeMap.mem_iff_isSome_getElem?,hknown]
        rfl
      simp only [Lost,hmem,true_and,not_forall,not_not] at hlost
      obtain ⟨c,hc,hpath⟩ := hlost
      obtain ⟨old,ho,hdesc⟩ := h.known_of_path hc hpath
      obtain rfl := Option.some.inj (hknown.symm.trans ho)
      have hkeep : c ∈ p.registry.registered := by
        rw [hd.registered]
        refine ⟨hc.2,fun other ho he => hstale ?_⟩
        rwa [← Path.child_inj.1 (he.symm.trans hpath)]
      exact ⟨c,⟨.inl hc.1,hb.adds.registered hkeep⟩,
        hdesc.trans (External.descriptor_congr (hb.adds.group.trans hd.group)).symm,hfound⟩
    · have hnew : c ∉ t.registry.registered := hb.adds.notMem h.good.numbered hd.nextSerial hc hn
      exact ⟨c,⟨.inr ⟨hc,hnew⟩,hc⟩,
        hdesc.trans (External.descriptor_congr hb.adds.group).symm,hfound⟩
  · rintro ⟨c,hc,hdesc,file',hf,-⟩
    have hv : Segment.isValid name = true := Programs.valid_scan directories name (by
      rw [Std.TreeMap.mem_iff_isSome_getElem?,hf]
      rfl)
    have hpath : c.path = (t.step action (.rescan directories)).external.group.child name := by
      rw [Registered.path,hdesc]
      exact External.path_descriptor _ (h.rescan directories).good.rooted hv action file
    obtain ⟨old,hk,hold⟩ := (h.rescan directories).known_of_path hc hpath
    rwa [External.file_of_descriptor (hdesc.symm.trans hold)]

theorem Tied.lost_iff : (t.step action (.rescan directories)).Lost name ↔
    t.Missed (Programs.scan directories) name := by
  constructor
  · rintro ⟨hmem,hnone⟩
    by_contra hm
    rw [Std.TreeMap.mem_iff_isSome_getElem?,Option.isSome_iff_exists] at hmem
    obtain ⟨file,hk⟩ := hmem
    obtain ⟨c,hc,hdesc,-⟩ := (h.known_iff hm file).1 hk
    exact hnone c hc ((h.rescan directories).path_eq hk hdesc)
  · rintro ⟨⟨hmem,hnone⟩,hstale⟩
    obtain ⟨p,hd,hb,hmid⟩ := h.rescan_brings directories
    have hmemMid : name ∈ p.external.known := (hd.known name).2 ⟨hmem,hstale⟩
    have hgroup : (t.rescanned action directories).external.group = t.external.group :=
      hb.adds.group.trans hd.group
    rw [Std.TreeMap.mem_iff_isSome_getElem?,Option.isSome_iff_exists] at hmemMid
    obtain ⟨file,hk⟩ := hmemMid
    have hk' : (t.step action (.rescan directories)).external.known[name]? = some file :=
      hb.kept _ _ hk
    refine ⟨by rw [Std.TreeMap.mem_iff_isSome_getElem?,hk']; rfl,fun c hc hpath => ?_⟩
    by_cases hold : c ∈ p.registry.registered
    · rw [hd.registered] at hold
      exact hnone c ⟨hc.1.resolve_right fun hn => hn.2 hold.1,hold.1⟩ (hpath.trans (by
        rw [step,hgroup]))
    · obtain ⟨other,file',hother,hk'',hdesc⟩ := hb.fresh c hc.2 hold
      have hpath' := (h.rescan directories).path_eq hk''
        (hdesc.trans (External.descriptor_congr hb.adds.group).symm)
      obtain rfl : other = name := Path.child_inj.1 (hpath'.symm.trans hpath)
      rw [hk] at hother
      cases hother

/-- A found program is known after a rescan, or its command is refused from then on. -/
theorem Tied.settled {file : String} (hf : (Programs.scan directories)[name]? = some file) :
    name ∈ (t.step action (.rescan directories)).external.known ∨
      ∃ e, (t.step action (.rescan directories)).registry.register
        ((t.step action (.rescan directories)).external.descriptor action name file) =
          .error e := by
  obtain ⟨p,-,hb,-⟩ := h.rescan_brings directories
  have hm : (name,file) ∈ (Programs.scan directories).toList :=
    Std.TreeMap.mem_toList_iff_getElem?_eq_some.2 hf
  refine (hb.settled _ hm).imp_right fun ⟨e,he⟩ => ⟨e,?_⟩
  rw [← he]
  exact congrArg _ (External.descriptor_congr hb.adds.group)

theorem Tied.hasCommand_or_refuses {file : String} {e : RegistryError}
    (hv : Segment.isValid name = true)
    (he : t.registry.register (t.external.descriptor action name file) = .error e) :
    t.HasCommand name ∨ t.Refuses action name file := by
  have hname := External.path_descriptor t.external h.good.rooted hv action file
  have hjudges := h.good.sound.judges (t.external.descriptor action name file)
  cases e with
  | invalidName text =>
    obtain ⟨hbad,rfl⟩ := (hjudges.invalid text).1 he
    rw [hname] at hbad he
    refine .inr ⟨_,he,.inl ⟨?_,rfl⟩⟩
    by_contra hall
    have hgood : Registry.isValidName (t.external.group.child name) = true := by
      simp only [not_exists,not_and,Bool.not_eq_false] at hall
      simpa [Registry.isValidName,Path.child,hv] using hall
    rw [hbad] at hgood
    cases hgood
  | duplicateCommand text =>
    obtain ⟨-,⟨c,hc,hp⟩,-⟩ := (hjudges.duplicate text).1 he
    exact .inl ⟨c,hc,hp.trans hname⟩
  | noSuchCommand text => exact absurd he (hjudges.known text)
  | pathConflict text existing =>
    obtain ⟨-,-,rfl,c,hc,rfl,hnested⟩ := hjudges.conflict text existing he
    rw [hname] at he hnested
    refine .inr ⟨_,he,.inr ⟨c,hc,fun hown => ?_,rfl⟩⟩
    -- a command of the same group has a name of the same length
    obtain ⟨other,file',hk,hd⟩ := h.known c ⟨hown,hc⟩
    rw [h.path_eq hk hd] at hnested
    rcases hnested with hn | hn <;> obtain ⟨-,hpre,hne⟩ := mem_above_iff.1 hn <;>
      exact hne (hpre.eq_of_length (by simp [Path.child]))

end

/-- Looking again in the same directories changes nothing. -/
theorem Tied.rescanned_again (h : t.Tied action) :
    (t.step action (.rescan directories)).rescanned action directories =
      ⟨(t.step action (.rescan directories)).external,
        (t.step action (.rescan directories)).registry,⟨0,0⟩⟩ := by
  refine External.rescan_eq_self (List.eq_nil_iff_forall_not_mem.2 fun name hm => ?_) fun f hf =>
    h.settled (Std.TreeMap.mem_toList_iff_getElem?_eq_some.1 hf)
  obtain ⟨file,hk,hmoved⟩ := External.mem_stale_iff.1 hm
  obtain ⟨file',hf,hsame⟩ := h.found_of_known hk
  exact hmoved file' hf hsame

/-- After every history a rescan leaves each program that was found registered or refused, knows
exactly the programs whose commands it has registered from where they were found, keeps no command
of a program that is gone or has moved, and would change nothing if it were done again. Missed are
only those programs whose commands others had removed while the programs stayed where they were;
they remain known without a command. -/
theorem aligns_after (group : String) {x : External} (hx : External.named group = .ok x)
    (history : List (Turn κ)) (directories : List Directory) :
    let t := (start x).run action history
    let found := Programs.scan directories
    let after := t.step action (.rescan directories)
    (∀ name file : String, found[name]? = some file → ¬t.Missed found name →
      after.HasCommand name ∨ after.Refuses action name file) ∧
    (∀ name file : String, ¬t.Missed found name → (after.external.known[name]? = some file ↔
      ∃ c ∈ after.held, IsFound action after found name file c)) ∧
    (∀ c ∈ after.held, ∃ name file : String, after.external.known[name]? = some file ∧
      IsFound action after found name file c) ∧
    after.rescanned action directories = ⟨after.external,after.registry,⟨0,0⟩⟩ ∧
    ∀ name, (after.Lost name ↔ t.Missed found name) ∧
      (t.Missed found name → ∃ e ∈ t.evicted, e.path = t.external.group.child name) := by
  intro t found after
  have h : t.Tied action := (tied_start hx).run history
  refine ⟨fun name file hf hm => ?_,fun name file hm => h.known_iff hm file,
    fun c hc => h.isFound_of_held hc,h.rescanned_again,
    fun name => ⟨h.lost_iff,fun hm => lost_evicted h.good hm.1⟩⟩
  rcases h.settled hf with hk | ⟨e,he⟩
  · rw [Std.TreeMap.mem_iff_isSome_getElem?,Option.isSome_iff_exists] at hk
    obtain ⟨old,hk⟩ := hk
    obtain ⟨c,hc,hdesc,-⟩ := (h.known_iff hm old).1 hk
    exact .inl ⟨c,hc.2,(h.rescan directories).path_eq hk hdesc⟩
  · have hv : Segment.isValid name = true := Programs.valid_scan directories name (by
      rw [Std.TreeMap.mem_iff_isSome_getElem?,hf]
      rfl)
    exact (h.rescan directories).hasCommand_or_refuses hv he

def obstructed : List (Turn Unit) :=
  [.rescan [shelf "late"],.other (.register (.named "/ext/hello/x" ()))]

/-- The program that is found then is refused for the command of the others. -/
theorem aligns_after_obstructed :
    let t := (start ext).run (fun _ => ()) obstructed
    let after := t.step (fun _ => ()) (.rescan [shelf "hello"])
    (Programs.scan [shelf "hello"])["hello"]? = some "a/hello" ∧
    ¬t.Missed (Programs.scan [shelf "hello"]) "hello" ∧
    after.Refuses (fun _ => ()) "hello" "a/hello" ∧
    after.rescanned (fun _ => ()) [shelf "hello"] = ⟨after.external,after.registry,⟨0,0⟩⟩ := by
  intro t after
  have hfound : (Programs.scan [shelf "hello"])["hello"]? = some "a/hello" := by decide +kernel
  have hknown : t.external.known.contains "hello" = false := by decide +kernel
  have htexts : ∀ c ∈ after.registry.toList, c.path.text = "/ext/hello/x" := by decide +kernel
  have hchild : (after.external.group.child "hello").text = "/ext/hello" := by decide +kernel
  have hmissed : ¬t.Missed (Programs.scan [shelf "hello"]) "hello" := by
    rintro ⟨⟨hm,-⟩,-⟩
    rw [← Std.TreeMap.contains_iff_mem,hknown] at hm
    cases hm
  obtain ⟨hplaced,-,-,hagain,-⟩ :=
    @aligns_after Unit (fun _ => ()) "/ext" _ named_ext obstructed [shelf "hello"]
  refine ⟨hfound,hmissed,(hplaced "hello" "a/hello" hfound hmissed).resolve_left ?_,hagain⟩
  rintro ⟨c,hc,hpath⟩
  have htext := htexts c hc
  rw [hpath,hchild] at htext
  simp at htext

def withdrawn : List (Turn Unit) :=
  [.rescan [shelf "hello"],.other (.unregister "/ext/hello")]

/-- The next rescan finds the program and leaves it known without a command, though its command
would be accepted. -/
theorem not_aligned_withdrawn : External.named "/ext" = .ok ext ∧
    let t := (start ext).run (fun _ => ()) withdrawn
    let after := t.step (fun _ => ()) (.rescan [shelf "hello"])
    (Programs.scan [shelf "hello"])["hello"]? = some "a/hello" ∧
    after.external.known["hello"]? = some "a/hello" ∧
    ¬after.HasCommand "hello" ∧ ¬after.Refuses (fun _ => ()) "hello" "a/hello" ∧
    ¬∃ c ∈ after.held, IsFound (fun _ => ()) after (Programs.scan [shelf "hello"])
      "hello" "a/hello" c := by
  refine ⟨named_ext,?_⟩
  intro t after
  have hfound : (Programs.scan [shelf "hello"])["hello"]? = some "a/hello" := by decide +kernel
  have hknown : after.external.known["hello"]? = some "a/hello" := by decide +kernel
  have hnil : after.registry.toList.map (·.serial) = [] := by decide +kernel
  have hempty : ∀ c, c ∉ after.registry.registered := by
    intro c hc
    have hmem : c ∈ after.registry.toList := hc
    rw [List.map_eq_nil_iff.1 hnil] at hmem
    cases hmem
  have hfree : (after.registry.register
      (after.external.descriptor (fun _ => ()) "hello" "a/hello")).toOption.isSome = true := by
    decide +kernel
  refine ⟨hfound,hknown,fun ⟨c,hc,_⟩ => hempty c hc,fun ⟨e,he,_⟩ => ?_,
    fun ⟨c,hc,_⟩ => hempty c hc.2⟩
  rw [he] at hfree
  cases hfree

end Shared
end CommandShell
