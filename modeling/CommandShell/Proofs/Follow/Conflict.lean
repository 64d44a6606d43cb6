import CommandShell.Proofs.Follow.Roster

/-! Which names a registry accepts.
The search in the sorted keys finds a command below a name whenever there is one, because all keys
that start with a text stand together. -/
namespace CommandShell

theorem prefix_of_not_lt {l k s : List Char} (h1 : ¬k < l) (h2 : ¬l ++ s < k) : l <+: k := by
  induction l generalizing k with
  | nil => exact List.nil_prefix
  | cons a l ih =>
    cases k with
    | nil => exact absurd List.Lex.nil h1
    | cons b k =>
      rw [List.cons_lt_cons_iff,not_or] at h1
      rw [List.cons_append,List.cons_lt_cons_iff,not_or] at h2
      obtain rfl : a = b := Char.le_antisymm (Char.not_lt.1 h1.1) (Char.not_lt.1 h2.1)
      rw [List.cons_prefix_cons]
      exact ⟨rfl,ih (fun h => h1.2 ⟨rfl,h⟩) fun h => h2.2 ⟨rfl,h⟩⟩

namespace Registry

variable {κ : Type} {r : Registry κ} {p : Path} {c : Registered κ}

def registered (r : Registry κ) : Set (Registered κ) := {c | c ∈ r.toList}

theorem mem_registered : c ∈ r.registered ↔ ∃ key : String, r.commands[key]? = some c :=
  SortedMap.mem_values_iff

/-- Every command is kept under the text of its name, and no name lies on the way to another. -/
structure Sound (r : Registry κ) : Prop where
  keyed : ∀ {key : String} {c}, r.commands[key]? = some c → c.path.text = key
  roster : Roster r.registered

theorem registered_congr {r' : Registry κ} (h : r'.commands = r.commands) :
    r'.registered = r.registered := by
  rw [registered,toList,h]
  rfl

theorem Sound.congr (h : r.Sound) {r' : Registry κ} (hr : r'.commands = r.commands) : r'.Sound :=
  ⟨fun hk => h.keyed (hr ▸ hk),(registered_congr hr).symm ▸ h.roster⟩

theorem sound_empty : (empty : Registry κ).Sound := by
  have hnone : ∀ c, c ∉ (empty : Registry κ).registered := by
    intro c hc
    obtain ⟨key,hk⟩ := mem_registered.1 hc
    simp [empty] at hk
  refine ⟨fun hk => ?_,⟨fun c hc => absurd hc (hnone c),fun c hc => absurd hc (hnone c)⟩⟩
  simp [empty] at hk

theorem Sound.entry (h : r.Sound) (hc : c ∈ r.registered) : r.commands[c.path.text]? = some c := by
  obtain ⟨key,hk⟩ := mem_registered.1 hc
  rw [h.keyed hk,hk]

theorem groupsAbove_eq (p : Path) : groupsAbove p = (above p.segments).map (Path.mk true) := by
  simp [groupsAbove,above,Function.comp_def]

theorem Sound.conflict?_of_above (h : r.Sound) (hc : c ∈ r.registered)
    (ha : c.path.segments ∈ above p.segments) : r.conflict? p ≠ none := by
  intro hn
  unfold conflict? at hn
  split at hn
  case h_1 => cases hn
  case h_2 hnone =>
    have hmem : c.path ∈ groupsAbove p := by
      rw [groupsAbove_eq,List.mem_map]
      exact ⟨_,ha,(h.roster.registrable c hc).eq_mk.symm⟩
    refine List.find?_eq_none.1 hnone _ hmem ?_
    rw [Std.TreeMap.contains_iff_mem,Std.TreeMap.mem_iff_isSome_getElem?,h.entry hc]
    rfl

theorem Sound.conflict?_of_below (h : r.Sound) (hp : p.Registrable) (hc : c ∈ r.registered)
    (ha : p.segments ∈ above c.path.segments) : r.conflict? p ≠ none := by
  intro hn
  unfold conflict? at hn
  split at hn
  case h_1 => cases hn
  obtain ⟨-,⟨s,hs⟩,hne⟩ := mem_above_iff.1 ha
  have htext : c.path.text = p.text ++ "/" ++ "/".intercalate s := by
    have hs0 : s ≠ [] := by
      rintro rfl
      exact hne (by simpa using hs)
    rw [(h.roster.registrable c hc).eq_mk,hp.eq_mk,← hs]
    exact Path.text_append hp.ne_nil hs0
  have hmem : c.path.text ∈ r.commands.keys := by
    rw [Std.TreeMap.mem_keys,Std.TreeMap.mem_iff_isSome_getElem?,h.entry hc]
    rfl
  have hlist : c.path.text.toList = (p.text ++ "/").toList ++ ("/".intercalate s).toList := by
    rw [htext,String.toList_append]
  have hle : p.text ++ "/" ≤ c.path.text := by
    rw [← String.not_lt,String.lt_iff,hlist]
    exact List.le_append_left
  -- the first key that is not before `p/` lies between it and the key of `c`
  cases hf : r.commands.keys.find? (fun key => p.text ++ "/" ≤ key) with
  | none => exact List.find?_eq_none.1 hf _ hmem (by simpa using hle)
  | some key =>
    obtain ⟨hlow,before,after,hkeys,hbefore⟩ := List.find?_eq_some_iff_append.1 hf
    have hkey : ¬c.path.text < key := by
      have hord := r.commands.ordered_keys
      rw [hkeys] at hord hmem
      rcases List.mem_append.1 hmem with hm | hm
      · exact absurd hle (by simpa using hbefore _ hm)
      · rcases List.mem_cons.1 hm with he | hm
        · exact he ▸ String.lt_irrefl _
        · have hlt := (List.pairwise_cons.1 (List.pairwise_append.1 hord).2.1).1 _ hm
          exact String.lt_asymm (compareOfLessAndEq_eq_lt.1 hlt)
    have hstart : key.startsWith (p.text ++ "/") = true := by
      rw [String.startsWith_string_iff]
      rw [decide_eq_true_eq,← String.not_lt,String.lt_iff] at hlow
      rw [String.lt_iff,hlist] at hkey
      exact prefix_of_not_lt hlow hkey
    simp [hf,hstart] at hn

/-- A name that is not taken and in conflict with no other is apart from all of them. -/
theorem Sound.apart (h : r.Sound) (hp : p.Registrable) (hfree : r.commands.contains p.text = false)
    (hn : r.conflict? p = none) : ∀ d ∈ r.registered, p.Apart d.path := by
  intro d hd
  have hne : p.segments ≠ d.path.segments := by
    intro he
    have hpd : p = d.path := Path.ext (hp.1.trans (h.roster.registrable d hd).1.symm) he
    rw [hpd,← Bool.not_eq_true,Std.TreeMap.contains_iff_mem,
      Std.TreeMap.mem_iff_isSome_getElem?,h.entry hd] at hfree
    exact hfree rfl
  refine ⟨fun hpre => ?_,fun hpre => ?_⟩
  · exact h.conflict?_of_below hp hd (mem_above_iff.2 ⟨hp.ne_nil,hpre,hne⟩) hn
  · refine h.conflict?_of_above hd (mem_above_iff.2 ⟨?_,hpre,hne.symm⟩) hn
    exact (h.roster.registrable d hd).ne_nil

end Registry
end CommandShell
