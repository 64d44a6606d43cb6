import CommandShell.External
import CommandShell.Proofs.Registry.Admission

/-! What looking for programs again does to a registry.
First the commands go that stand under the names of stale programs, whoever registered them; then
new programs are registered under names that are free. -/
namespace CommandShell

variable {κ : Type}

namespace Path

variable {p : Path} {name : String}

theorem fromRoot_child (hp : p.fromRoot = p) (hn : IsName name) :
    (p.child name).fromRoot = p.child name := by
  have hsegments := congrArg segments hp
  rw [segments_fromRoot] at hsegments
  have habs : p.absolute = true := by rw [← hp,absolute_fromRoot]
  refine Path.ext (by simp [child,habs]) ?_
  rw [segments_fromRoot]
  simp only [child,List.foldl_append,List.foldl_cons,List.foldl_nil,climb_regular _ hn.2.1 hn.2.2]
  rw [List.reverse_cons,hsegments]

structure Rooted (p : Path) : Prop where
  fromRoot : p.fromRoot = p
  plain : ∀ name ∈ p.segments, Plain name

theorem Parsed.rooted (hp : p.Parsed) : p.fromRoot.Rooted :=
  ⟨p.fromRoot_fromRoot,plain_fromRoot hp⟩

theorem Rooted.parse_child (hp : p.Rooted) (hv : Segment.isValid name = true) :
    parse (p.child name).text = .ok (p.child name) := by
  obtain ⟨hplain,-⟩ := Segment.plain_of_isValid hv
  refine parse_text_of_plain (by rw [child,← hp.fromRoot,absolute_fromRoot]) fun other hm => ?_
  rcases List.mem_append.1 hm with hm | hm
  · exact hp.plain other hm
  · exact List.mem_singleton.1 hm ▸ hplain

theorem Rooted.spelled_child_iff (hp : p.Rooted) (hv : Segment.isValid name = true) {q : Path} :
    Spelled (p.child name).text q ↔ q = p.child name := by
  obtain ⟨-,hname⟩ := Segment.plain_of_isValid hv
  have hroot := fromRoot_child hp.fromRoot hname
  constructor
  · rintro ⟨q',hq',rfl⟩
    rw [hp.parse_child hv] at hq'
    rw [← Except.ok.inj hq',hroot]
  · rintro rfl
    exact ⟨_,hp.parse_child hv,hroot⟩

theorem child_inj {other : String} : p.child name = p.child other ↔ name = other := by
  simp [child]

end Path

namespace Programs

def Valid (found : Programs) : Prop := ∀ name ∈ found, Segment.isValid name = true

theorem valid_empty : Valid ∅ := fun name hm => absurd hm (by simp)

theorem Valid.addEntry {found : Programs} (h : found.Valid) (d : Directory) (e : DirectoryEntry) :
    (addEntry d found e).Valid := by
  intro name hm
  unfold Programs.addEntry at hm
  split at hm
  · exact h name hm
  · split_ifs at hm with hskip
    · exact h name hm
    · rw [Std.TreeMap.mem_insert,Std.LawfulEqCmp.compare_eq_iff_eq] at hm
      rcases hm with rfl | hm
      · simp only [Bool.or_eq_true,not_or,Bool.not_eq_true',Bool.not_eq_false] at hskip
        exact hskip.1.2
      · exact h name hm

theorem Valid.addDirectory {found : Programs} (h : found.Valid) (d : Directory) :
    (found.addDirectory d).Valid :=
  List.foldlRecOn _ (Programs.addEntry d) h fun _ h e _ => h.addEntry d e

theorem valid_scan (directories : List Directory) : (scan directories).Valid :=
  List.foldlRecOn _ Programs.addDirectory valid_empty fun _ h d _ => h.addDirectory d

end Programs

namespace External

variable {p p' p'' : Progress κ} {name : String} {names : List String}

/-- The programs of these names are forgotten and the commands under them are gone. -/
structure Drops (names : List String) (p p' : Progress κ) : Prop where
  group : p'.external.group = p.external.group
  sound : p'.registry.Sound
  nextSerial : p'.registry.nextSerial = p.registry.nextSerial
  known : ∀ name, name ∈ p'.external.known ↔ name ∈ p.external.known ∧ name ∉ names
  registered : p'.registry.registered =
    {c ∈ p.registry.registered | ∀ name ∈ names, c.path ≠ p.external.group.child name}

theorem dropProgram_eq (p : Progress κ) (name : String) : dropProgram p name =
    match p.registry.unregister (p.external.commandPath name) with
    | .ok (_,r) => ⟨{ p.external with known := p.external.known.erase name },r,
        { p.report with removed := p.report.removed + 1 }⟩
    | .error _ => { p with
        external := { p.external with known := p.external.known.erase name } } := rfl

theorem drops_dropProgram (hp : p.registry.Sound) (hg : p.external.group.Rooted)
    (hv : Segment.isValid name = true) : Drops [name] p (dropProgram p name) := by
  have hknown : ∀ other, other ∈ p.external.known.erase name ↔
      other ∈ p.external.known ∧ other ∉ [name] := by
    intro other
    rw [Std.TreeMap.mem_erase,ne_eq,Std.LawfulEqCmp.compare_eq_iff_eq,List.mem_singleton,
      and_comm,eq_comm]
  have haddress := hp.addresses (p.external.commandPath name)
  have hspelled : ∀ {q : Path}, Path.Spelled (p.external.commandPath name) q ↔
      q = p.external.group.child name := hg.spelled_child_iff hv
  cases hu : p.registry.unregister (p.external.commandPath name) with
  | ok r =>
    obtain ⟨c,r'⟩ := r
    have hc := Registry.changes_of_unregister hp hu
    have hpath : c.path = p.external.group.child name :=
      hspelled.1 ((haddress.unregister c).1 ⟨r',hu⟩).2
    rw [dropProgram_eq,hu]
    refine ⟨rfl,hc.sound,Registry.nextSerial_of_unregister hu,hknown,?_⟩
    simp only [hc.registered,Event.on,hpath,List.mem_singleton,forall_eq]
  | error e =>
    have hnone : ∀ c ∈ p.registry.registered, c.path ≠ p.external.group.child name := by
      intro c hc hpath
      obtain ⟨r',hok⟩ := (haddress.unregister c).2 ⟨hc,hspelled.2 hpath⟩
      rw [hu] at hok
      cases hok
    rw [dropProgram_eq,hu]
    refine ⟨rfl,hp,rfl,hknown,Set.ext fun c => ?_⟩
    simpa using fun hc => hnone c hc

theorem drops_foldl (hp : p.registry.Sound) (hg : p.external.group.Rooted)
    (hv : ∀ name ∈ names, Segment.isValid name = true) :
    Drops names p (names.foldl dropProgram p) := by
  induction names generalizing p with
  | nil => exact ⟨rfl,hp,rfl,by simp,by simp⟩
  | cons name names ih =>
    have hone := drops_dropProgram hp hg (hv name List.mem_cons_self)
    have hrest := ih hone.sound (hone.group ▸ hg) fun other hm =>
      hv other (List.mem_cons_of_mem _ hm)
    refine ⟨hrest.group.trans hone.group,hrest.sound,hrest.nextSerial.trans hone.nextSerial,?_,?_⟩
    · intro other
      rw [List.foldl_cons,hrest.known,hone.known]
      simp [and_assoc]
    · rw [List.foldl_cons,hrest.registered,hone.registered,hone.group]
      ext c
      simp [and_assoc]

theorem Drops.numbered (h : Drops names p p') (hn : p.registry.Numbered) :
    p'.registry.Numbered := by
  intro c hc
  rw [h.registered] at hc
  exact h.nextSerial ▸ hn c hc.1

/-- Commands were registered for programs that were not known, and nothing else has changed. -/
structure Adds (p p' : Progress κ) : Prop where
  group : p'.external.group = p.external.group
  sound : p'.registry.Sound
  nextSerial : p.registry.nextSerial ≤ p'.registry.nextSerial
  registered : p.registry.registered ⊆ p'.registry.registered
  fresh : ∀ c ∈ p'.registry.registered, c ∉ p.registry.registered →
    p.registry.nextSerial ≤ c.serial ∧ c.serial < p'.registry.nextSerial
  known : ∀ name ∈ p'.external.known, name ∈ p.external.known ∨ Segment.isValid name = true ∧
    ∃ c ∈ p'.registry.registered, c ∉ p.registry.registered ∧
      c.path = p.external.group.child name

theorem adds_refl (hp : p.registry.Sound) : Adds p p :=
  ⟨rfl,hp,le_rfl,subset_rfl,fun _ hc hn => absurd hc hn,fun _ hm => .inl hm⟩

theorem Adds.trans (h : Adds p p') (h' : Adds p' p'') : Adds p p'' := by
  refine ⟨h'.group.trans h.group,h'.sound,h.nextSerial.trans h'.nextSerial,
    h.registered.trans h'.registered,fun c hc hn => ?_,fun name hm => ?_⟩
  · by_cases hc' : c ∈ p'.registry.registered
    · obtain ⟨hle,hlt⟩ := h.fresh c hc' hn
      exact ⟨hle,hlt.trans_le h'.nextSerial⟩
    · obtain ⟨hle,hlt⟩ := h'.fresh c hc hc'
      exact ⟨h.nextSerial.trans hle,hlt⟩
  · rcases h'.known name hm with hm' | ⟨hv,c,hc,hn,hpath⟩
    · rcases h.known name hm' with hm | ⟨hv,c,hc,hn,hpath⟩
      · exact .inl hm
      · exact .inr ⟨hv,c,h'.registered hc,hn,hpath⟩
    · exact .inr ⟨hv,c,hc,fun hc' => hn (h.registered hc'),hpath.trans (by rw [h.group])⟩

theorem path_descriptor (x : External) (hg : x.group.Rooted) (hv : Segment.isValid name = true)
    (action : String → κ) (file : String) : (x.descriptor action name file).name =
      x.group.child name := by
  have hroot := Path.fromRoot_child hg.fromRoot (Segment.plain_of_isValid hv).2
  have hparse : Path.parse (x.commandPath name) = .ok (x.group.child name) := hg.parse_child hv
  simp only [descriptor,Descriptor.named]
  split
  · rename_i q hq
    rw [hparse] at hq
    rw [← Except.ok.inj hq]
    exact hroot
  · rename_i e he
    rw [hparse] at he
    cases he

theorem adds_addProgram (action : String → κ) (hp : p.registry.Sound)
    (hn : p.registry.Numbered) (hg : p.external.group.Rooted) (hv : Segment.isValid name = true)
    (file : String) : Adds p (addProgram action p name file) := by
  unfold addProgram
  split_ifs
  · exact adds_refl hp
  · cases hr : p.registry.register (p.external.descriptor action name file) with
    | error e => exact adds_refl hp
    | ok r =>
      obtain ⟨c,r'⟩ := r
      have hc := Registry.changes_of_register hp hr
      obtain ⟨rfl,hserial⟩ := Registry.serial_of_register hr
      have hnew : (⟨p.registry.nextSerial,p.external.descriptor action name file⟩ : Registered κ) ∉
          p.registry.registered := fun hm => lt_irrefl _ (hn _ hm)
      refine ⟨rfl,hc.sound,hserial ▸ Nat.le_succ _,?_,?_,fun other hm => ?_⟩
      · rw [hc.registered]
        exact Set.subset_insert _ _
      · rw [hc.registered]
        rintro d (rfl | hd) hnd
        · exact ⟨le_rfl,hserial ▸ Nat.lt_succ_self _⟩
        · exact absurd hd hnd
      · rw [Std.TreeMap.mem_insert,Std.LawfulEqCmp.compare_eq_iff_eq] at hm
        rcases hm with rfl | hm
        · refine .inr ⟨hv,_,?_,hnew,path_descriptor p.external hg hv action file⟩
          rw [hc.registered]
          exact Set.mem_insert _ _
        · exact .inl hm

theorem Adds.numbered (h : Adds p p') (hn : p.registry.Numbered) : p'.registry.Numbered := by
  intro c hc
  by_cases hc' : c ∈ p.registry.registered
  · exact (hn c hc').trans_le h.nextSerial
  · exact (h.fresh c hc hc').2

theorem Adds.notMem (h : Adds p p') {r : Registry κ} (hn : r.Numbered)
    (hr : p.registry.nextSerial = r.nextSerial) {c : Registered κ}
    (hc : c ∈ p'.registry.registered) (hnew : c ∉ p.registry.registered) : c ∉ r.registered := by
  intro hold
  have hle := (h.fresh c hc hnew).1
  have hlt := hn c hold
  omega

theorem adds_foldl (action : String → κ) {found : List (String × String)}
    (hp : p.registry.Sound) (hn : p.registry.Numbered) (hg : p.external.group.Rooted)
    (hv : ∀ f ∈ found, Segment.isValid f.1 = true) :
    Adds p (found.foldl (fun p f => addProgram action p f.1 f.2) p) := by
  induction found generalizing p with
  | nil => exact adds_refl hp
  | cons f found ih =>
    have hone := adds_addProgram action hp hn hg (hv f List.mem_cons_self) f.2
    exact hone.trans (ih hone.sound (hone.numbered hn) (hone.group ▸ hg)
      fun g hm => hv g (List.mem_cons_of_mem _ hm))

theorem mem_of_mem_stale {x : External} {found : Programs} (h : name ∈ x.stale found) :
    name ∈ x.known := by
  obtain ⟨⟨name',file⟩,hm,rfl⟩ := List.mem_map.1 h
  have hmem := (List.mem_filter.1 hm).1
  rw [Std.TreeMap.mem_toList_iff_getElem?_eq_some] at hmem
  rw [Std.TreeMap.mem_iff_isSome_getElem?,hmem]
  rfl

theorem rescan_cases (x : External) (action : String → κ) {r : Registry κ} {found : Programs}
    (hr : r.Sound) (hn : r.Numbered) (hg : x.group.Rooted)
    (hv : x.known.Valid) (hf : found.Valid) :
    ∃ p, Drops (x.stale found) ⟨x,r,⟨0,0⟩⟩ p ∧ Adds p (x.rescan action r found) := by
  have hdrops : Drops (x.stale found) ⟨x,r,⟨0,0⟩⟩
      ((x.stale found).foldl dropProgram ⟨x,r,⟨0,0⟩⟩) :=
    drops_foldl hr hg fun name hm => hv name (mem_of_mem_stale hm)
  refine ⟨_,hdrops,adds_foldl action hdrops.sound (hdrops.numbered hn) (hdrops.group ▸ hg) ?_⟩
  rintro ⟨name,file⟩ hm
  rw [Std.TreeMap.mem_toList_iff_getElem?_eq_some] at hm
  refine hf name ?_
  rw [Std.TreeMap.mem_iff_isSome_getElem?,hm]
  rfl

end External
end CommandShell
