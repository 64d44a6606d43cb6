import CommandShell.Environment
import CommandShell.Proofs.Path.Algebra
import CommandShell.Proofs.Registry.Admission
import CommandShell.Proofs.Registry.Convergence

/-! Texts as names of paths.
What is written is read back, but for the path without segments, which is read as `.` and leads to
the same place. So a text tells a normal path from all others, a command from all that are
registered beside it, and a session the group that it was sent to. -/
namespace CommandShell
namespace Path

/-- The paths that can be made from texts. -/
inductive Obtained : Path → Prop
  | root : Obtained root
  | here : Obtained here
  | parsed {text : String} {p : Path} (h : parse text = .ok p) : Obtained p
  | joined {p q : Path} (hp : Obtained p) (hq : Obtained q) : Obtained (p.join q)
  | parent {p q : Path} (hp : Obtained p) (h : p.parent? = some q) : Obtained q
  | normalized {p : Path} (hp : Obtained p) : Obtained p.normalize

variable {p q : Path}

theorem Obtained.plain (h : p.Obtained) : ∀ name ∈ p.segments, Plain name := by
  induction h with
  | root => exact fun name hm => absurd hm List.not_mem_nil
  | here => exact fun name hm => absurd hm List.not_mem_nil
  | parsed h => exact plain_of_parsed ⟨_,h⟩
  | @joined p q _ _ ihp ihq =>
    cases hq : q.absolute with
    | true => rwa [join_of_absolute p hq]
    | false =>
      rw [segments_join_of_relative p hq]
      exact fun name hm => (List.mem_append.1 hm).elim (ihp name) (ihq name)
  | @parent p q _ h ih =>
    unfold parent? at h
    split_ifs at h
    obtain rfl := Option.some.inj h
    exact fun name hm => ih name (List.dropLast_subset _ hm)
  | normalized _ ih =>
    intro name hm
    rcases mem_foldl_climb (List.mem_reverse.1 hm) with hm | hm
    · cases hm
    · exact ih name hm

theorem parse_text_of_ne_here (hp : ∀ name ∈ p.segments, Plain name) (h : p ≠ here) :
    parse p.text = .ok p := by
  cases habs : p.absolute with
  | true => exact parse_text_of_plain habs hp
  | false =>
    have hne : p.segments ≠ [] := fun hnil => h (Path.ext habs hnil)
    have hmk : p = ⟨false,p.segments⟩ := Path.ext habs rfl
    rw [hmk]
    exact parse_text_relative hne hp

theorem parse_text_here : parse here.text = .ok ⟨false,["."]⟩ := by
  decide +kernel

theorem exists_parse_text (hp : ∀ name ∈ p.segments, Plain name) :
    ∃ q, parse p.text = .ok q ∧ q.text = p.text ∧ q.normalize = p.normalize := by
  by_cases h : p = here
  · subst h
    exact ⟨_,parse_text_here,by decide +kernel,by decide +kernel⟩
  · exact ⟨p,parse_text_of_ne_here hp h,rfl,rfl⟩

theorem exists_parse {text : String} (h : text ≠ "") :
    ∃ p, parse text = .ok p ∧ p ≠ here := by
  obtain ⟨c,cs,hc⟩ := List.exists_cons_of_ne_nil fun he => h (String.toList_eq_nil_iff.1 he)
  refine ⟨_,if_neg (by simp [hc]),fun hhere => ?_⟩
  obtain ⟨habs,hnil⟩ := Path.mk.inj hhere
  have hslash : c ≠ '/' := by simpa [hc] using habs
  -- so the first piece begins with `c`, and is kept
  obtain ⟨piece,pieces,hsplit⟩ := List.exists_cons_of_ne_nil (List.splitOn_ne_nil '/' cs)
  rw [hc,List.splitOn_cons_eq_if_modifyHead,if_neg (by simpa using hslash),hsplit,
    List.modifyHead_cons,List.filter_cons_of_pos (by simp)] at hnil
  cases hnil

theorem text_inj_of_normal (hp : ∀ name ∈ p.segments, Plain name)
    (hq : ∀ name ∈ q.segments, Plain name) (hpn : p.Normal) (hqn : q.Normal)
    (h : p.text = q.text) : p = q := by
  obtain ⟨p',hp',-,hpp⟩ := exists_parse_text hp
  obtain ⟨q',hq',-,hqq⟩ := exists_parse_text hq
  rw [h,hq'] at hp'
  obtain rfl := Except.ok.inj hp'
  rw [normalize_eq_self_iff.2 hpn] at hpp
  rw [normalize_eq_self_iff.2 hqn] at hqq
  exact hpp.symm.trans hqq

end Path

theorem Environment.currentGroup_setCurrentGroup (e : Environment) {g : Path}
    (hg : ∀ name ∈ g.segments, Path.Plain name) :
    (e.setCurrentGroup g).currentGroup = g.fromRoot := by
  obtain ⟨q,hq,-,he⟩ := Path.exists_parse_text hg
  have hroot : q.fromRoot = g.fromRoot := Path.normalize_join_congr rfl he
  simp only [currentGroup,setCurrentGroup,get?_set,if_true,Option.map_some,hq,hroot]

namespace Registry

variable {κ : Type} {r : Registry κ}

theorem Sound.parse_key (h : r.Sound) {key : String} {c : Registered κ}
    (hk : r.commands[key]? = some c) : Path.parse key = .ok c.path := by
  rw [← h.keyed hk]
  exact (h.roster.registrable c (mem_registered.2 ⟨key,hk⟩)).parse_text

theorem Sound.eq_of_text (h : r.Sound) {c d : Registered κ} (hc : c ∈ r.registered)
    (hd : d ∈ r.registered) (he : c.path.text = d.path.text) : c = d := by
  have hpath := (h.roster.registrable c hc).text_inj (h.roster.registrable d hd) he
  exact h.roster.apart c hc d hd (hpath ▸ List.prefix_rfl)

end Registry

namespace Path

/-- A text is read as a path that is written as it was read. A path made from texts is written as
something that leads where it does, and no two that are normal are written alike. After every
history the keys of a registry are read as the names of their commands, and the paths in a
completion index are those that exactly one command has. The group that a session is sent to is the
one that it is in. -/
theorem texts_identify {κ : Type} (history : List (Hub.Call κ)) :
    (∀ text : String, text ≠ "" → ∃ p, parse text = .ok p ∧ parse p.text = .ok p) ∧
    (∀ p : Path, p.Obtained →
      ∃ q, parse p.text = .ok q ∧ q.text = p.text ∧ q.normalize = p.normalize) ∧
    (∀ p q : Path, p.Obtained → q.Obtained → p.Normal → q.Normal →
      (p.text = q.text ↔ p = q)) ∧
    (let h := Hub.empty.run history
    (∀ key c, h.registry.commands[key]? = some c →
      c.path.text = key ∧ parse key = .ok c.path) ∧
    (∀ c ∈ h.registry.registered, ∀ d ∈ h.registry.registered,
      c.path.text = d.path.text → c = d) ∧
    ∀ (i : Nat) index, h.followers[i]? = some (.completion index) →
      ∀ key, key ∈ (index.sync h.registry).1.paths ↔
        ∃! c, c ∈ h.registry.registered ∧ c.path.text = key) ∧
    ∀ (e : Environment) (g : Path), g.Obtained →
      (e.setCurrentGroup g).currentGroup = (root.join g).normalize := by
  refine ⟨fun text ht => ?_,fun p hp => exists_parse_text hp.plain,
    fun p q hp hq hpn hqn => ⟨text_inj_of_normal hp.plain hq.plain hpn hqn,congrArg text⟩,?_,
    fun e g hg => e.currentGroup_setCurrentGroup hg.plain⟩
  · obtain ⟨p,hp,hne⟩ := exists_parse ht
    exact ⟨p,hp,parse_text_of_ne_here (plain_of_parsed ⟨text,hp⟩) hne⟩
  · intro h
    have hg : h.Good := Hub.good_empty.run history
    refine ⟨fun key c hk => ⟨hg.sound.keyed hk,hg.sound.parse_key hk⟩,
      fun c hc d hd => hg.sound.eq_of_text hc hd,fun i index hi key => ?_⟩
    refine (hg.completion_lists hi key).trans ⟨?_,ExistsUnique.exists⟩
    rintro ⟨c,hc,he⟩
    exact ⟨c,⟨hc,he⟩,fun d ⟨hd,hde⟩ => hg.sound.eq_of_text hd hc (hde.trans he.symm)⟩

def keyed : List (Hub.Call Unit) :=
  [.attempt (.register (.named "/g/x" ())),.join .completion,
    .attempt (.register (.named "/gx" ()))]

/-- A path that leads above where it starts, and the one that is written `.`. -/
theorem texts_identify_upwards :
    let up : Path := ⟨false,["..","x"]⟩
    let h := Hub.empty.run keyed
    "//a/./b/" ≠ "" ∧ (∃ p, parse "//a/./b/" = .ok p ∧ parse p.text = .ok p) ∧
    up.Obtained ∧ up.Normal ∧ here.Obtained ∧ here.Normal ∧
    (∃ q, parse here.text = .ok q ∧ q.text = here.text ∧ q.normalize = here.normalize) ∧
    (up.text = here.text ↔ up = here) ∧ h.followers[0]? = some (.completion ⟨∅,0⟩) ∧
    (∃! c, c ∈ h.registry.registered ∧ c.path.text = "/gx") ∧
    (Environment.empty.setCurrentGroup up).currentGroup = (root.join up).normalize := by
  intro up h
  have hup : up.Obtained := .parsed (show parse "../x" = .ok up by decide +kernel)
  have hupn : up.Normal := ⟨1,["x"],rfl,by simp⟩
  have hheren : here.Normal := ⟨0,[],rfl,by simp⟩
  have hindex : h.followers[0]? = some (.completion ⟨∅,0⟩) := by rfl
  have hkey : "/gx" ∈ ((⟨∅,0⟩ : Completion).sync h.registry).1.paths := by decide +kernel
  obtain ⟨hread,hplace,hinj,⟨-,-,hkeys⟩,hgroup⟩ := texts_identify keyed
  exact ⟨by decide,hread _ (by decide),hup,hupn,.here,hheren,hplace here .here,
    hinj up here hup .here hupn hheren,hindex,(hkeys 0 _ hindex "/gx").1 hkey,
    hgroup .empty up hup⟩

end Path
end CommandShell
