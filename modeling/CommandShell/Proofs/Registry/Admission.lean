import CommandShell.Proofs.Registry.Hub

/-! The names that a registry takes.
A name is refused for what it is, or because a registered command has that name, stands above it or
below it; all other names are accepted. A command is addressed by every spelling of its name. -/
namespace CommandShell

variable {κ : Type}

namespace Path

variable {p q : Path}

/-- A text that, read from the root, names `p`. -/
def Spelled (name : String) (p : Path) : Prop := ∃ q, parse name = .ok q ∧ q.fromRoot = p

theorem Registrable.eq_fromRoot (hp : p.Registrable) (hq : q.Parsed)
    (he : q.fromRoot.text = p.text) : q.fromRoot = p := by
  have hparse := parse_text_of_plain q.absolute_fromRoot (plain_fromRoot hq)
  rw [he,hp.parse_text] at hparse
  exact (Except.ok.inj hparse).symm

theorem Registrable.above_of_text (hp : p.Registrable) (hq : q.Registrable)
    (h : (p.text ++ "/").toList <+: q.text.toList) : p.segments ∈ above q.segments := by
  obtain ⟨rest,hrest⟩ := h
  have htext : ∀ {x : Path}, x.Registrable →
      x.text.toList = '/' :: ['/'].intercalate (x.segments.map String.toList) := by
    intro x hx
    rw [hx.eq_mk]
    exact toList_text hx.ne_nil
  have hsplit : ∀ {x : Path}, x.Registrable →
      (['/'].intercalate (x.segments.map String.toList)).splitOn '/' =
        x.segments.map String.toList := fun hx => splitOn_intercalate hx.ne_nil hx.plain
  have hcut : ['/'].intercalate (q.segments.map String.toList) =
      ['/'].intercalate (p.segments.map String.toList) ++ '/' :: rest := by
    rw [String.toList_append,htext hp,htext hq] at hrest
    simpa using (List.cons.inj hrest).2.symm
  have hmap : q.segments.map String.toList = p.segments.map String.toList ++ rest.splitOn '/' := by
    rw [← hsplit hq,hcut,List.splitOn_append_cons_self,hsplit hp]
  have hinj : Function.Injective String.toList := fun _ _ he => String.toList_inj.1 he
  refine mem_above_iff.2 ⟨hp.ne_nil,?_,fun he => ?_⟩
  · rw [← List.prefix_map_iff_of_injective hinj,hmap]
    exact List.prefix_append _ _
  · have hlen := congrArg List.length hmap
    have hpos := List.length_pos_of_ne_nil (List.splitOn_ne_nil '/' rest)
    simp only [List.length_map,List.length_append,he] at hlen
    omega

end Path

namespace Registry

variable {r : Registry κ} {p : Path} {c : Registered κ} {d : Descriptor κ}

theorem Sound.nested_of_conflict? (h : r.Sound) (hp : p.Registrable) {existing : String}
    (hc : r.conflict? p = some existing) : ∃ c ∈ r.registered, c.path.text = existing ∧
      (c.path.segments ∈ above p.segments ∨ p.segments ∈ above c.path.segments) := by
  unfold conflict? at hc
  split at hc
  case h_1 q hq =>
    obtain rfl := Option.some.inj hc
    have hmem := List.mem_of_find?_eq_some hq
    have hfound := List.find?_some hq
    rw [Std.TreeMap.contains_iff_mem,Std.TreeMap.mem_iff_isSome_getElem?,
      Option.isSome_iff_exists] at hfound
    obtain ⟨c,hk⟩ := hfound
    rw [groupsAbove_eq,List.mem_map] at hmem
    obtain ⟨s,hs,rfl⟩ := hmem
    obtain ⟨hne,hpre,-⟩ := mem_above_iff.1 hs
    have hreg : (⟨true,s⟩ : Path).Registrable := by
      refine ⟨rfl,?_⟩
      simp only [isValidName,Bool.and_eq_true,decide_eq_true_eq,List.all_eq_true]
      exact ⟨hne,fun name hm => hp.isValid name (hpre.subset hm)⟩
    have hmemc : c ∈ r.registered := mem_registered.2 ⟨_,hk⟩
    have hcs := (h.roster.registrable c hmemc).text_inj hreg (h.keyed hk)
    exact ⟨c,hmemc,h.keyed hk,.inl (hcs ▸ hs)⟩
  case h_2 =>
    simp only at hc
    split at hc
    case h_2 => cases hc
    case h_1 key hkey =>
      split_ifs at hc with hstart
      obtain rfl := Option.some.inj hc
      have hmem := List.mem_of_find?_eq_some hkey
      rw [Std.TreeMap.mem_keys,Std.TreeMap.mem_iff_isSome_getElem?,
        Option.isSome_iff_exists] at hmem
      obtain ⟨c,hk⟩ := hmem
      have hmemc : c ∈ r.registered := mem_registered.2 ⟨_,hk⟩
      rw [String.startsWith_string_iff,← h.keyed hk] at hstart
      exact ⟨c,hmemc,h.keyed hk,.inr (hp.above_of_text (h.roster.registrable c hmemc) hstart)⟩

theorem registrable_of_isValidName (hv : isValidName d.name = true) : d.name.Registrable :=
  ⟨by rw [← d.name_normal,Path.absolute_fromRoot],hv⟩

/-- What a registry answers to a descriptor, and when. -/
inductive Ruling (r : Registry κ) (d : Descriptor κ) :
    Except RegistryError (Registered κ × Registry κ) → Prop
  | invalid (hv : isValidName d.name = false) : Ruling r d (.error (.invalidName d.name.text))
  | duplicate (hv : isValidName d.name = true) {c} (hc : c ∈ r.registered)
      (hp : c.path = d.name) : Ruling r d (.error (.duplicateCommand d.name.text))
  | conflict (hv : isValidName d.name = true) {c} (hc : c ∈ r.registered)
      (hp : c.path.segments ∈ above d.name.segments ∨ d.name.segments ∈ above c.path.segments)
      (hfree : ∀ c ∈ r.registered, c.path ≠ d.name) :
      Ruling r d (.error (.pathConflict d.name.text c.path.text))
  | accepted (hv : isValidName d.name = true) (ha : ∀ c ∈ r.registered, d.name.Apart c.path) {r'}
      (hr : r'.registered = insert ⟨r.nextSerial,d⟩ r.registered) :
      Ruling r d (.ok (⟨r.nextSerial,d⟩,r'))

theorem Sound.contains_iff (h : r.Sound) (hp : p.Registrable) :
    r.commands.contains p.text = true ↔ ∃ c ∈ r.registered, c.path = p := by
  rw [Std.TreeMap.contains_iff_mem,Std.TreeMap.mem_iff_isSome_getElem?,Option.isSome_iff_exists]
  constructor
  · rintro ⟨c,hk⟩
    have hc : c ∈ r.registered := mem_registered.2 ⟨_,hk⟩
    exact ⟨c,hc,(h.roster.registrable c hc).text_inj hp (h.keyed hk)⟩
  · rintro ⟨c,hc,rfl⟩
    exact ⟨c,h.entry hc⟩

theorem Sound.ruling (h : r.Sound) (d : Descriptor κ) : r.Ruling d (r.register d) := by
  cases hr : r.register d with
  | ok p =>
    obtain ⟨c,r'⟩ := p
    have hc := changes_of_register h hr
    unfold register at hr
    simp only at hr
    split_ifs at hr with hv
    split at hr
    case h_1 => cases hr
    case h_2 =>
      obtain ⟨rfl,rfl⟩ := Prod.mk.inj (Except.ok.inj hr)
      exact .accepted (by simpa using hv) hc.fits.2 hc.registered
  | error e =>
    unfold register at hr
    simp only at hr
    split_ifs at hr with hv hk
    · obtain rfl := Except.error.inj hr
      exact .invalid (by simpa using hv)
    · have hv : isValidName d.name = true := by simpa using hv
      obtain rfl := Except.error.inj hr
      obtain ⟨c,hc,hp⟩ := (h.contains_iff (registrable_of_isValidName hv)).1 hk
      exact .duplicate hv hc hp
    · have hv : isValidName d.name = true := by simpa using hv
      have hreg := registrable_of_isValidName hv
      split at hr
      case h_2 => cases hr
      case h_1 existing hconf =>
        obtain rfl := Except.error.inj hr
        obtain ⟨c,hc,rfl,hp⟩ := h.nested_of_conflict? hreg hconf
        exact .conflict hv hc hp fun d' hd' he => hk ((h.contains_iff hreg).2 ⟨d',hd',he⟩)

/-- Two registered names cannot be in conflict with each other, so a name that is taken is in
conflict with no other. -/
theorem not_apart_of_nested (hp : c.path.segments ∈ above p.segments ∨
    p.segments ∈ above c.path.segments) : ¬p.Apart c.path := by
  rintro ⟨h1,h2⟩
  rcases hp with hp | hp
  · exact h2 (mem_above_iff.1 hp).2.1
  · exact h1 (mem_above_iff.1 hp).2.1

theorem not_apart_of_eq (hp : c.path = p) : ¬p.Apart c.path := fun ha =>
  ha.1 (hp ▸ List.prefix_rfl)

/-- A descriptor is accepted where its name is valid and apart from all others, and otherwise the
answer says why it is not. -/
structure Judges (r : Registry κ) (d : Descriptor κ) : Prop where
  accepted : (∃ c r', r.register d = .ok (c,r')) ↔
    isValidName d.name = true ∧ ∀ c ∈ r.registered, d.name.Apart c.path
  added : ∀ c r', r.register d = .ok (c,r') →
    c.descriptor = d ∧ r'.registered = insert c r.registered
  invalid : ∀ name, r.register d = .error (.invalidName name) ↔
    isValidName d.name = false ∧ name = d.name.text
  duplicate : ∀ name, r.register d = .error (.duplicateCommand name) ↔
    isValidName d.name = true ∧ (∃ c ∈ r.registered, c.path = d.name) ∧ name = d.name.text
  conflict : ∀ name existing, r.register d = .error (.pathConflict name existing) →
    isValidName d.name = true ∧ (∀ c ∈ r.registered, c.path ≠ d.name) ∧ name = d.name.text ∧
      ∃ c ∈ r.registered, c.path.text = existing ∧
        (c.path.segments ∈ above d.name.segments ∨ d.name.segments ∈ above c.path.segments)
  known : ∀ name, r.register d ≠ .error (.noSuchCommand name)

theorem Sound.judges (h : r.Sound) (d : Descriptor κ) : r.Judges d := by
  have hruling := h.ruling d
  generalize hr : r.register d = answer at hruling
  cases hruling with
  | invalid hv => constructor <;> simp [hr,hv,eq_comm]
  | duplicate hv hc hp =>
    have hex : ∃ c ∈ r.registered, c.path = d.name := ⟨_,hc,hp⟩
    have hna : ¬∀ c ∈ r.registered, d.name.Apart c.path := fun ha => not_apart_of_eq hp (ha _ hc)
    refine ⟨by simp [hr,hna],by simp [hr],by simp [hr,hv],fun name => ?_,by simp [hr],by simp [hr]⟩
    rw [hr,Except.error.injEq,RegistryError.duplicateCommand.injEq]
    exact ⟨fun he => ⟨hv,hex,he.symm⟩,fun he => he.2.2.symm⟩
  | @conflict hv c hc hp hfree =>
    have hna : ¬∀ c ∈ r.registered, d.name.Apart c.path := fun ha =>
      not_apart_of_nested hp (ha _ hc)
    refine ⟨by simp [hr,hna],by simp [hr],by simp [hr,hv],?_,?_,by simp [hr]⟩
    · have hno : ¬∃ c ∈ r.registered, c.path = d.name := fun ⟨c,hc,hp⟩ => hfree c hc hp
      simp [hr,hno]
    · intro name existing he
      obtain ⟨rfl,rfl⟩ : d.name.text = name ∧ c.path.text = existing := by simpa [hr] using he
      exact ⟨hv,hfree,rfl,c,hc,rfl,hp⟩
  | @accepted hv ha r' hreg =>
    have hno : ¬∃ c ∈ r.registered, c.path = d.name := fun ⟨c,hc,hp⟩ =>
      not_apart_of_eq hp (ha c hc)
    refine ⟨by simpa [hr,hv] using ha,fun c s he => ?_,by simp [hr,hv],?_,by simp [hr],by simp [hr]⟩
    · obtain ⟨rfl,rfl⟩ := Prod.mk.inj (Except.ok.inj (hr.symm.trans he))
      exact ⟨rfl,hreg⟩
    · simp [hr,hno]

/-- A text reaches the command that it spells the name of, and no other. -/
structure Addresses (r : Registry κ) (name : String) : Prop where
  get : ∀ c, r.get? name = some c ↔ c ∈ r.registered ∧ Path.Spelled name c.path
  contains : r.contains name = true ↔ ∃ c ∈ r.registered, Path.Spelled name c.path
  unregister : ∀ c, (∃ r', r.unregister name = .ok (c,r')) ↔
    c ∈ r.registered ∧ Path.Spelled name c.path
  removed : ∀ c r', r.unregister name = .ok (c,r') → r'.registered = r.registered \ {c}

theorem Sound.get?_eq_some_iff (h : r.Sound) (name : String) (c : Registered κ) :
    r.get? name = some c ↔ c ∈ r.registered ∧ Path.Spelled name c.path := by
  simp only [get?,Option.bind_eq_some_iff,canonical?]
  constructor
  · rintro ⟨key,hkey,hk⟩
    have hc : c ∈ r.registered := mem_registered.2 ⟨key,hk⟩
    cases hq : Path.parse name with
    | error e => simp [hq] at hkey
    | ok q =>
      obtain rfl : q.fromRoot.text = key := by simpa [hq] using hkey
      refine ⟨hc,q,hq,(h.roster.registrable c hc).eq_fromRoot ⟨name,hq⟩ (h.keyed hk).symm⟩
  · rintro ⟨hc,q,hq,he⟩
    exact ⟨c.path.text,by simp [hq,he],h.entry hc⟩

theorem unregister_eq_ok_iff (r : Registry κ) (name : String) (c : Registered κ) :
    (∃ r', r.unregister name = .ok (c,r')) ↔ r.get? name = some c := by
  simp only [Registry.unregister,get?]
  cases canonical? name with
  | none => simp
  | some key =>
    cases hk : r.commands[key]? with
    | none => simp [hk]
    | some c' => simp [hk]

theorem Sound.addresses (h : r.Sound) (name : String) : r.Addresses name := by
  refine ⟨h.get?_eq_some_iff name,?_,fun c => ?_,fun c r' hok => ?_⟩
  · simp only [Registry.contains,Option.isSome_iff_exists,h.get?_eq_some_iff]
  · rw [unregister_eq_ok_iff,h.get?_eq_some_iff]
  · have hc : c ∈ r.registered :=
      ((h.get?_eq_some_iff name c).1 ((unregister_eq_ok_iff r name c).1 ⟨r',hok⟩)).1
    rw [(changes_of_unregister h hok).registered]
    ext d
    refine and_congr_right fun hd => not_congr ⟨fun hp => ?_,fun he => he ▸ rfl⟩
    exact h.roster.apart d hd c hc (hp ▸ List.prefix_rfl)

end Registry

namespace Hub

/-- After every history all registered names are absolute, normal and valid, none lies on the way
to another, every descriptor is judged by its name alone, nothing happens to anybody when it is
refused, and a command is reached by exactly the spellings of its name. -/
theorem admits_after (history : List (Call κ)) :
    let h := empty.run history
    (∀ c ∈ h.registry.registered, h.registry.commands[c.path.text]? = some c ∧
      c.path.absolute = true ∧ c.path.normalize = c.path ∧
      Registry.isValidName c.path = true) ∧
    (∀ c ∈ h.registry.registered, ∀ d ∈ h.registry.registered,
      c.path.segments <+: d.path.segments → c = d) ∧
    (∀ d, h.registry.Judges d ∧
      ∀ e, h.registry.register d = .error e → h.step (.attempt (.register d)) = h) ∧
    ∀ name, h.registry.Addresses name := by
  intro h
  have hs : h.registry.Sound := (good_empty.run history).sound
  refine ⟨fun c hc => ?_,hs.roster.apart,fun d => ⟨hs.judges d,fun e he => ?_⟩,hs.addresses⟩
  · have hreg := hs.roster.registrable c hc
    refine ⟨hs.entry hc,hreg.1,?_,hreg.2⟩
    have hroot := hreg.fromRoot_eq
    rwa [Path.fromRoot,Path.join,if_pos hreg.1] at hroot
  · simp [step,Registry.after,Registry.attempt,he,Except.map]

def siblings : List (Call Unit) :=
  [.attempt (.register (.named "/g/x" ())),.attempt (.register (.named "/gx" ())),
    .attempt (.register (.named "/g+x" ()))]

/-- The group of one of them is refused as a name, and the other two have nothing to do with it. -/
theorem admits_after_siblings :
    let h := empty.run siblings
    h.registry.size = 3 ∧
    h.registry.register (.named "/g" ()) = .error (.pathConflict "/g" "/g/x") ∧
    h.step (.attempt (.register (.named "/g" ()))) = h ∧
    ∃ c ∈ h.registry.registered, c.path.text = "/g/x" ∧
      (c.path.segments ∈ above ["g"] ∨ ["g"] ∈ above c.path.segments) := by
  intro h
  have hsize : h.registry.size = 3 := by decide +kernel
  have hanswer : (h.registry.register (.named "/g" ())).map (fun _ => ()) =
      .error (.pathConflict "/g" "/g/x") := by
    decide +kernel
  have hrefused : h.registry.register (.named "/g" ()) = .error (.pathConflict "/g" "/g/x") := by
    cases hr : h.registry.register (.named "/g" ()) with
    | ok p => simp [hr,Except.map] at hanswer
    | error e => simpa [hr,Except.map] using hanswer
  obtain ⟨hjudges,hsame⟩ := (admits_after siblings).2.2.1 (.named "/g" ())
  obtain ⟨-,-,-,hex⟩ := hjudges.conflict _ _ hrefused
  exact ⟨hsize,hrefused,hsame _ hrefused,hex⟩

end Hub
end CommandShell
