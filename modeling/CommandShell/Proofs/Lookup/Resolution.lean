import CommandShell.Proofs.Lookup.Walk
import CommandShell.Proofs.Registry.Admission
import CommandShell.Proofs.Registry.Kernel
import CommandShell.Session.Run

/-! What names stand for.
The answer of a session to a name is given by its aliases, its variables and the commands that are
registered now. Neither the tree nor what was registered before has a part in it. -/
namespace CommandShell

variable {κ : Type}

/-- Where names are looked up for an entry of the search path. -/
def Environment.base (e : Environment) (entry : Path) : Path :=
  (e.currentGroup.join entry).normalize

namespace Resolution

/-- The base leads to a group, and the path from there to what it names. -/
def Below (S : Set (Registered κ)) (base p : Path) (a : Resolution κ) : Prop :=
  ∃ b q, Walk S [] base.segments b ∧ IsGroup S b ∧ Walk S b p.segments q ∧ StandsAt S q a

/-- What a name denotes that is no alias. An absolute name leads from the root, any other from the
first base below which it names something. -/
inductive Denotes (S : Set (Registered κ)) (e : Environment) (name : String) (a : Resolution κ) :
    Prop
  | absolute {p q} (hp : Path.parse name = .ok p) (habs : p.absolute = true)
      (hw : Walk S [] p.segments q) (ha : StandsAt S q a)
  | relative {p before entry after} (hp : Path.parse name = .ok p) (hrel : p.absolute = false)
      (he : e.searchPath = before ++ entry :: after)
      (hfirst : ∀ other ∈ before, ∀ b, ¬Below S (e.base other) p b)
      (ha : Below S (e.base entry) p a)

variable {S : Set (Registered κ)} {e : Environment} {name : String} {a : Resolution κ}
  {t : Tree (Registered κ)} {aliases : AliasTable} {base p : Path} {q : List String} {i : NodeId}
  {c : Registered κ}

theorem Denotes.standsAt (h : Denotes S e name a) : ∃ q, StandsAt S q a := by
  cases h with
  | absolute _ _ _ ha => exact ⟨_,ha⟩
  | relative _ _ _ _ ha =>
    obtain ⟨b,q,-,-,-,ha⟩ := ha
    exact ⟨q,ha⟩

theorem slash_notMem_base {entry : Path} (he : entry ∈ e.searchPath) :
    "/" ∉ (e.base entry).segments := by
  have hentry : "/" ∉ entry.segments := by
    obtain ⟨text,-,ht⟩ := List.mem_filterMap.1 he
    cases hp : Path.parse (String.ofList text) with
    | error f =>
      rw [hp] at ht
      cases ht
    | ok p =>
      rw [hp] at ht
      obtain rfl := Option.some.inj ht
      exact Path.slash_notMem_of_parsed ⟨_,hp⟩
  have hgroup : "/" ∉ e.currentGroup.segments := by
    unfold Environment.currentGroup
    split
    · rename_i p hp
      obtain ⟨text,-,ht⟩ := Option.map_eq_some_iff.1 hp
      intro hm
      rw [Path.segments_fromRoot,List.mem_reverse] at hm
      rcases Path.mem_foldl_climb hm with hm | hm
      · cases hm
      · exact Path.slash_notMem_of_parsed ⟨text,ht⟩ hm
    · exact List.not_mem_nil
  intro hm
  have hjoin : "/" ∈ (e.currentGroup.join entry).segments := by
    rcases Path.mem_foldl_climb (List.mem_reverse.1 hm) with hm | hm
    · cases hm
    · exact hm
  unfold Path.join at hjoin
  split_ifs at hjoin
  · exact hentry hjoin
  · rcases List.mem_append.1 hjoin with hm | hm
    · exact hgroup hm
    · exact hentry hm

section Find

variable (h : t.Lists S) (hS : Roster S)
include h hS

theorem located_iff (hq : t.at? q = some i) (hp : "/" ∉ p.segments) :
    (t.find? i p).bind (ofNode? t) = some a ↔
      ∃ r, Walk S (if p.absolute then [] else q) p.segments r ∧ StandsAt S r a := by
  rw [Option.bind_eq_some_iff]
  constructor
  · rintro ⟨j,hj,ha⟩
    obtain ⟨r,hw,hr⟩ := (h.find?_eq_some_iff hq hp).1 hj
    exact ⟨r,hw,(h.ofNode?_eq_some_iff hS hr).1 ha⟩
  · rintro ⟨r,hw,ha⟩
    obtain ⟨j,hj⟩ := h.at?_isSome_iff.2 ha.isPlace
    exact ⟨j,(h.find?_eq_some_iff hq hp).2 ⟨r,hw,hj⟩,(h.ofNode?_eq_some_iff hS hj).2 ha⟩

theorem within?_eq_some_iff (hb : "/" ∉ base.segments) (hp : "/" ∉ p.segments)
    (hrel : p.absolute = false) : within? t base p = some a ↔ Below S base p a := by
  rw [within?,Option.bind_eq_some_iff]
  constructor
  · rintro ⟨i,hi,ha⟩
    obtain ⟨b,hw,hbi⟩ := (h.find?_eq_some_iff (Tree.at?_nil t) hb).1 hi
    rw [ite_self] at hw
    split_ifs at ha with hg
    obtain ⟨q,hwq,hqa⟩ := (located_iff h hS hbi hp).1 ha
    rw [hrel,if_neg Bool.false_ne_true] at hwq
    exact ⟨b,q,hw,(h.isGroup_iff hbi).1 hg,hwq,hqa⟩
  · rintro ⟨b,q,hw,hg,hwq,hqa⟩
    obtain ⟨i,hi⟩ := h.at?_isSome_iff.2 hg.isPlace
    refine ⟨i,(h.find?_eq_some_iff (Tree.at?_nil t) hb).2 ⟨b,by rwa [ite_self],hi⟩,?_⟩
    rw [if_pos ((h.isGroup_iff hi).2 hg)]
    exact (located_iff h hS hi hp).2 ⟨q,by rwa [hrel,if_neg Bool.false_ne_true],hqa⟩

/-- The search stops at the first base below which it finds something. -/
theorem searched_iff (hp : "/" ∉ p.segments) (hrel : p.absolute = false) :
    e.searchPath.findSome? (fun entry => within? t (e.base entry) p) = some a ↔
      ∃ before entry after, e.searchPath = before ++ entry :: after ∧
        (∀ other ∈ before, ∀ b, ¬Below S (e.base other) p b) ∧ Below S (e.base entry) p a := by
  have hwithin : ∀ {entry b}, entry ∈ e.searchPath →
      (within? t (e.base entry) p = some b ↔ Below S (e.base entry) p b) := fun hm =>
    within?_eq_some_iff h hS (slash_notMem_base hm) hp hrel
  rw [List.findSome?_eq_some_iff]
  constructor
  · rintro ⟨before,entry,after,he,ha,hfirst⟩
    refine ⟨before,entry,after,he,fun other hm b hb => ?_,(hwithin (by simp [he])).1 ha⟩
    rw [← hwithin (by simp [he,hm]),hfirst other hm] at hb
    cases hb
  · rintro ⟨before,entry,after,he,hfirst,ha⟩
    refine ⟨before,entry,after,he,(hwithin (by simp [he])).2 ha,fun other hm => ?_⟩
    refine Option.eq_none_iff_forall_ne_some.2 fun b hb => ?_
    exact hfirst other hm b ((hwithin (by simp [he,hm])).1 hb)

/-- What is found for a name that is no alias is what it denotes. -/
theorem find?_eq_some_iff (hn : aliases.get? name = none) :
    find? aliases e t name = some a ↔ Denotes S e name a := by
  simp only [find?,hn]
  cases hp : Path.parse name with
  | error f =>
    constructor
    · intro ha
      cases ha
    · rintro (⟨hp',-,-,-⟩ | ⟨hp',-,-,-,-⟩) <;> cases hp.symm.trans hp'
  | ok p =>
    have hs : "/" ∉ p.segments := Path.slash_notMem_of_parsed ⟨name,hp⟩
    cases habs : p.absolute with
    | true =>
      simp only [habs,if_true]
      rw [located_iff h hS (Tree.at?_nil t) hs,ite_self]
      constructor
      · rintro ⟨r,hw,ha⟩
        exact .absolute hp habs hw ha
      · rintro (⟨hp',-,hw,ha⟩ | ⟨hp',hrel,-,-,-⟩) <;>
          obtain rfl := Except.ok.inj (hp.symm.trans hp')
        · exact ⟨_,hw,ha⟩
        · cases habs.symm.trans hrel
    | false =>
      simp only [habs,Bool.false_eq_true,if_false]
      refine (searched_iff h hS hs habs).trans ⟨?_,?_⟩
      · rintro ⟨before,entry,after,he,hfirst,ha⟩
        exact .relative hp habs he hfirst ha
      · rintro (⟨hp',habs',-,-⟩ | ⟨hp',-,he,hfirst,ha⟩) <;>
          obtain rfl := Except.ok.inj (hp.symm.trans hp')
        · cases habs.symm.trans habs'
        · exact ⟨_,_,_,he,hfirst,ha⟩

end Find

theorem denotes_path (hS : Roster S) (hc : c ∈ S) :
    Denotes S e c.path.text (.command c.path c) := by
  have hreg := hS.registrable c hc
  exact .absolute hreg.parse_text hreg.1 (walk_down hS hc _ rfl) (.command hc rfl)

theorem below_remainder (hS : Roster S) (hc : c ∈ S) {b rest : List String}
    (hw : Walk S [] base.segments b) (hrest : rest ≠ []) (hb : b ++ rest = c.path.segments) :
    Below S base ⟨false,rest⟩ (.command c.path c) :=
  ⟨b,_,hw,isGroup_of_append hc hrest hb,walk_down hS hc rest hb,.command hc rfl⟩

end Resolution

namespace Session

variable {s : Session} {t : Tree (Registered κ)} {name : String} {a : Resolution κ}

theorem resolve_eq_ok_iff :
    s.resolve t name = .ok a ↔ Resolution.find? s.aliases s.environment t name = some a := by
  unfold resolve
  cases Resolution.find? s.aliases s.environment t name <;> simp

theorem resolve_eq_error_iff {e : ShellError} : s.resolve t name = .error e ↔
    e = .commandNotFound name ∧ Resolution.find? s.aliases s.environment t name = none := by
  unfold resolve
  cases Resolution.find? s.aliases s.environment t name <;> simp [eq_comm]

end Session

namespace Kernel

/-- The answer to a name from the aliases and variables of a session and from the commands that are
registered now. -/
structure Resolves (k : Kernel κ) (s : Session) (name : String)
    (answer : Except ShellError (Resolution κ)) : Prop where
  aliased : ∀ a, answer = .ok (.aliased a) ↔ a.name = name ∧ s.aliases.get? name = some a.text
  command : ∀ p c, answer = .ok (.command p c) → k.registry.get? p.text = some c ∧ c.path = p
  group : ∀ g, answer = .ok (.group g) →
    g.absolute = true ∧ IsGroup k.registry.registered g.segments
  found : s.aliases.get? name = none → ∀ a,
    answer = .ok a ↔ Resolution.Denotes k.registry.registered s.environment name a
  missing : ∀ e, answer = .error e ↔ e = .commandNotFound name ∧ s.aliases.get? name = none ∧
    ∀ a, ¬Resolution.Denotes k.registry.registered s.environment name a

variable {k : Kernel κ}

theorem resolves (hk : k.hub.Good) (s : Session) (name : String) :
    k.Resolves s name (s.resolve k.synced.names.tree name) := by
  have hsound := hk.sound
  have hlists := synced_lists hk
  have hok : ∀ {a}, s.resolve k.synced.names.tree name = .ok a ↔
      (∃ text, s.aliases.get? name = some text ∧ a = .aliased ⟨name,text⟩) ∨
        s.aliases.get? name = none ∧
          Resolution.Denotes k.registry.registered s.environment name a := by
    intro a
    rw [Session.resolve_eq_ok_iff]
    cases hn : s.aliases.get? name with
    | some text => simp [Resolution.find?,hn,eq_comm]
    | none => simp [Resolution.find?_eq_some_iff hlists hsound.roster hn]
  refine ⟨fun a => ?_,fun p c ha => ?_,fun g ha => ?_,fun hn a => ?_,fun e => ?_⟩
  · rw [hok]
    constructor
    · rintro (⟨text,ht,he⟩ | ⟨-,hd⟩)
      · obtain rfl := Resolution.aliased.inj he
        exact ⟨rfl,ht⟩
      · obtain ⟨q,hq⟩ := hd.standsAt
        cases hq
    · rintro ⟨rfl,ht⟩
      exact .inl ⟨_,ht,rfl⟩
  · rcases hok.1 ha with ⟨text,-,he⟩ | ⟨-,hd⟩
    · cases he
    · obtain ⟨q,hq⟩ := hd.standsAt
      cases hq with
      | command hc _ =>
        have hreg := hsound.roster.registrable c hc
        exact ⟨(hsound.get?_eq_some_iff _ c).2 ⟨hc,_,hreg.parse_text,hreg.fromRoot_eq⟩,rfl⟩
  · rcases hok.1 ha with ⟨text,-,he⟩ | ⟨-,hd⟩
    · cases he
    · obtain ⟨q,hq⟩ := hd.standsAt
      cases hq with
      | group hg => exact ⟨rfl,hg⟩
  · rw [hok,hn]
    simp
  · rw [Session.resolve_eq_error_iff]
    refine and_congr_right fun _ => ?_
    rw [Option.eq_none_iff_forall_ne_some]
    simp only [ne_eq,← Session.resolve_eq_ok_iff,hok]
    cases hn : s.aliases.get? name with
    | some text => simp
    | none => simp

/-- After every history of a kernel each session gets the answers to all names that the commands
registered now give. Every command is found by its name, and by what remains of it below each
group above it that the search path reaches first. -/
theorem resolves_after (history : List (Call κ)) (disk : Disk) (s : Session) :
    let k := empty.run history
    let S := k.registry.registered
    let answer := s.resolve k.synced.names.tree
    (∀ name, (Act.resolve name).run ⟨k,disk,s⟩ = some (answer name,⟨k.synced,disk,s⟩) ∧
      k.Resolves s name (answer name)) ∧
    ∀ c ∈ S,
      (s.aliases.get? c.path.text = none → answer c.path.text = .ok (.command c.path c)) ∧
      ∀ before entry after b rest, s.environment.searchPath = before ++ entry :: after →
        Walk S [] (s.environment.base entry).segments b → rest ≠ [] →
        b ++ rest = c.path.segments →
        s.aliases.get? (⟨false,rest⟩ : Path).text = none →
        (∀ other ∈ before, ∀ a,
          ¬Resolution.Below S (s.environment.base other) ⟨false,rest⟩ a) →
        answer (⟨false,rest⟩ : Path).text = .ok (.command c.path c) := by
  intro k S answer
  have hk : k.hub.Good := good_run history good_empty
  have hS : Roster S := hk.sound.roster
  refine ⟨fun name => ⟨rfl,resolves hk s name⟩,fun c hc => ⟨fun hn => ?_,?_⟩⟩
  · exact ((resolves hk s _).found hn _).2 (Resolution.denotes_path hS hc)
  · intro before entry after b rest he hw hrest hb hn hfirst
    have hplain : ∀ name ∈ rest, Path.Plain name := fun name hm =>
      (hS.registrable c hc).plain name (by simp [← hb,hm])
    exact ((resolves hk s _).found hn _).2
      (.relative (Path.parse_text_relative hrest hplain) rfl he hfirst
        (Resolution.below_remainder hS hc hw hrest hb))

def workshop : List (Call Nat) :=
  [.register (.named "/tool/build" 0),.register (.named "/build" 1),.read,.unregister "build",
    .register (.named "/tool/sub/run" 2),.complete "/t"]

def visitor : Session :=
  { Session.opened default with
    environment := .ofList [("GROUP","x/../tool"),("SEARCH_PATH","missing::sub/..:/")] }

/-- The remainder of a name is looked up below the group itself. -/
theorem resolves_after_workshop :
    let k := empty.run workshop
    let S := k.registry.registered
    ∃ c ∈ S, c.path = ⟨true,["tool","build"]⟩ ∧ visitor.environment.searchPath =
        [⟨false,["missing"]⟩] ++ ⟨false,["sub",".."]⟩ :: [.root] ∧
      Walk S [] (visitor.environment.base ⟨false,["sub",".."]⟩).segments ["tool"] ∧
      (∀ a, ¬Resolution.Below S (visitor.environment.base ⟨false,["missing"]⟩)
        ⟨false,["build"]⟩ a) ∧
      visitor.resolve k.synced.names.tree "build" = .ok (.command c.path c) ∧
      visitor.resolve k.synced.names.tree "/tool/build" = .ok (.command c.path c) := by
  intro k S
  have hpaths : (k.registry.toList.map Registered.path) =
      [⟨true,["tool","build"]⟩,⟨true,["tool","sub","run"]⟩] := by decide +kernel
  have hmem : ∀ d ∈ S, d.path = ⟨true,["tool","build"]⟩ ∨ d.path = ⟨true,["tool","sub","run"]⟩ := by
    intro d hd
    have hm := List.mem_map_of_mem (f := Registered.path) hd
    rw [hpaths] at hm
    simpa using hm
  obtain ⟨c,hc,hp⟩ : ∃ c ∈ S, c.path = ⟨true,["tool","build"]⟩ :=
    List.mem_map.1 (hpaths ▸ List.mem_cons_self)
  have hsplit : visitor.environment.searchPath =
      [⟨false,["missing"]⟩] ++ ⟨false,["sub",".."]⟩ :: [.root] := by decide +kernel
  have hbase : (visitor.environment.base ⟨false,["sub",".."]⟩).segments = ["tool"] := by
    decide +kernel
  have hmissing : (visitor.environment.base ⟨false,["missing"]⟩).segments =
      ["tool","missing"] := by decide +kernel
  have hwalk : Walk S [] (visitor.environment.base ⟨false,["sub",".."]⟩).segments ["tool"] := by
    rw [hbase]
    exact .on (leads_of_isName (by simp [Path.IsName]) (.inr ⟨c,hc,by simp [hp]⟩)) .stop
  have hnone : ∀ a, ¬Resolution.Below S (visitor.environment.base ⟨false,["missing"]⟩)
      ⟨false,["build"]⟩ a := by
    rintro a ⟨b,q,hw,-⟩
    rw [hmissing] at hw
    obtain ⟨r,hl,hw⟩ := walk_cons_iff.1 hw
    obtain ⟨r',hl',-⟩ := walk_cons_iff.1 hw
    obtain ⟨rfl,-⟩ : r = ["tool"] ∧ IsPlace S r := by simpa [Leads] using hl
    obtain ⟨rfl,hplace⟩ : r' = ["tool","missing"] ∧ IsPlace S r' := by simpa [Leads] using hl'
    rcases hplace with hnil | ⟨d,hd,hpre⟩
    · cases hnil
    · rcases hmem d hd with he | he <;> simp [he] at hpre
  obtain ⟨-,hfound⟩ := resolves_after workshop .empty visitor
  obtain ⟨habs,hrel⟩ := hfound c hc
  refine ⟨c,hc,hp,hsplit,hwalk,hnone,?_,?_⟩
  · exact hrel _ _ _ ["tool"] ["build"] hsplit hwalk (by simp) (by simp [hp]) (by decide +kernel)
      (by simpa using hnone)
  · have htext : c.path.text = "/tool/build" := by rw [hp]; decide +kernel
    rw [← htext]
    exact habs (by rw [htext]; decide +kernel)

end Kernel
end CommandShell
