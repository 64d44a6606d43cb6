import Mathlib.Data.String.Basic
import CommandShell.Text.Utf8
import CommandShell.Proofs.Registry.Admission
import CommandShell.Proofs.Registry.Convergence

/-! What an index answers.
It keeps full paths, and yet answers with last segments too, which several commands may share. The
answer depends on the commands that are registered now: it has each of their names that begins as
asked once, in the order of bytes, and a name goes when the last command that bears it goes. -/
namespace CommandShell
namespace Text

theorem encode_eq (s : String) : encode s = s.toList.flatMap String.utf8EncodeChar := by
  have h := String.toByteArray_ofList (l := s.toList)
  rw [String.ofList_toList] at h
  rw [encode,String.toUTF8,h,List.utf8Encode,List.toList_data_toByteArray]

/-- The longer codes begin with greater bytes, and codes of one length are numbers in base 64. -/
theorem utf8EncodeChar_append_lt {c d : Char} (h : c < d) (more more' : Bytes) :
    String.utf8EncodeChar c ++ more < String.utf8EncodeChar d ++ more' := by
  have hlt : c.val.toNat < d.val.toNat := h
  have hd : d.val.toNat < 0x110000 := by
    rcases d.valid with h | h
    · exact h.trans (by decide)
    · exact h.2
  have hbyte : ∀ n m k, 0 < m → m + k ≤ 256 → (n % m + k) % 256 = n % m + k := fun n m k hm hk =>
    Nat.mod_eq_of_lt (by have := Nat.mod_lt n hm; omega)
  have hdigits : ∀ n, n / 4096 = n / 64 / 64 ∧ n / 262144 = n / 64 / 64 / 64 := by omega
  simp only [String.utf8EncodeChar]
  split_ifs <;>
    simp (disch := decide) only [List.cons_append,List.nil_append,List.cons_lt_cons_iff,
      UInt8.lt_iff_toNat_lt,← UInt8.toNat_inj,UInt8.toNat_ofNat',hdigits,hbyte] <;>
    omega

theorem encode_lt {s t : String} (h : s < t) : encode s < encode t := by
  have hlex : ∀ l l' : List Char, l < l' →
      l.flatMap String.utf8EncodeChar < l'.flatMap String.utf8EncodeChar := by
    intro l
    induction l with
    | nil =>
      intro l' h
      cases l' with
      | nil => exact absurd h (List.not_lt_nil _)
      | cons d l' =>
        obtain ⟨b,bytes,hb⟩ := List.exists_cons_of_ne_nil (String.utf8EncodeChar_ne_nil (c := d))
        rw [List.flatMap_cons,hb]
        exact List.nil_lt_cons _ _
    | cons c l ih =>
      intro l' h
      cases l' with
      | nil => exact absurd h (List.not_lt_nil _)
      | cons d l' =>
        rw [List.flatMap_cons,List.flatMap_cons]
        rcases List.cons_lt_cons_iff.1 h with hc | ⟨rfl,hl⟩
        · exact utf8EncodeChar_append_lt hc _ _
        · exact List.append_left_lt (ih l' hl)
  rw [encode_eq,encode_eq]
  exact hlex _ _ (String.lt_iff_toList_lt.1 h)

end Text

variable {κ : Type}

/-- The name is the path of the command or the last segment of it. -/
def Registered.Bears (c : Registered κ) (name : String) : Prop :=
  name = c.path.text ∨ c.path.segments.getLast? = some name

namespace Completion

variable {S : Set (Registered κ)} {c : Completion} {start name : String}

theorem getLast?_segments {p : Path} (hp : p.Registrable) :
    p.segments.getLast? = some (simpleName p.text) := by
  have hne := hp.ne_nil
  have hsplit : p.text.toList.splitOn '/' = [] :: p.segments.map String.toList := by
    rw [hp.eq_mk,Path.toList_text hne,List.splitOn_cons_eq_if_modifyHead,if_pos (by simp),
      Path.splitOn_intercalate hne hp.plain]
  have hlast : p.segments.getLast? = some (p.segments.getLast hne) :=
    List.getLast?_eq_some_getLast hne
  have hend : (p.text.toList.splitOn '/').getLast? = some (p.segments.getLast hne).toList := by
    rw [hsplit,List.getLast?_cons,List.getLast?_map,hlast]
    rfl
  rw [hlast,simpleName,hend,Option.getD_some,String.ofList_toList]

theorem pairwise_complete (c : Completion) (start : String) :
    (c.complete start).Pairwise fun a b => Text.encode a < Text.encode b := by
  have hordered : (c.complete start).Pairwise fun a b => compare a b = .lt :=
    Std.TreeSet.ordered_toList
  exact hordered.imp fun h => Text.encode_lt (compareOfLessAndEq_eq_lt.1 h)

theorem Lists.mem_complete_iff (h : Lists c.paths S) (hS : Roster S) :
    name ∈ c.complete start ↔ start.toList <+: name.toList ∧ ∃ d ∈ S, d.Bears name := by
  rw [complete,Std.TreeSet.mem_toList,Std.TreeSet.mem_ofList,List.contains_iff_mem,List.mem_filter,
    String.startsWith_string_iff,and_comm]
  refine and_congr_right fun _ => ?_
  simp only [List.mem_flatMap,Std.TreeSet.mem_toList,h _,List.mem_cons,List.not_mem_nil,or_false]
  constructor
  · rintro ⟨_,⟨d,hd,rfl⟩,hname⟩
    refine ⟨d,hd,hname.imp_right fun he => ?_⟩
    rw [getLast?_segments (hS.registrable d hd),he]
  · rintro ⟨d,hd,hname⟩
    refine ⟨_,⟨d,hd,rfl⟩,hname.imp_right fun he => ?_⟩
    rw [getLast?_segments (hS.registrable d hd)] at he
    exact (Option.some.inj he).symm

end Completion

namespace Registry

variable {r : Registry κ} {name : String}

/-- Only the removal of the last command that bears a name can take the name away. -/
theorem Sound.exists_unregister (h : r.Sound) {a : Attempt κ} {d : Registered κ}
    (hd : d ∈ r.registered) (hname : d.Bears name)
    (hnone : ¬∃ e ∈ (r.after a).registered, e.Bears name) :
    ∃ text r', a = .unregister text ∧ r.unregister text = .ok (d,r') ∧
      ∀ e ∈ r.registered, e.Bears name → e = d := by
  -- so the attempt is neither a registration nor refused
  have hkept : ¬r.registered ⊆ (r.after a).registered := fun hsub => hnone ⟨d,hsub hd,hname⟩
  cases a with
  | register x =>
    refine absurd ?_ hkept
    rw [(h.registered_after _).2,published,attempt]
    cases r.register x with
    | error f => exact subset_rfl
    | ok p => exact Set.subset_insert _ _
  | unregister text =>
    cases hx : r.unregister text with
    | error f =>
      refine absurd ?_ hkept
      simp [Registry.after,attempt,hx,Except.map]
    | ok p =>
      have hafter : r.after (.unregister text) = p.2 := by
        simp [Registry.after,attempt,hx,Except.map]
      have hrest : (r.after (.unregister text)).registered = r.registered \ {p.1} := by
        rw [hafter]
        exact (h.addresses text).removed p.1 p.2 hx
      have honly : ∀ e ∈ r.registered, e.Bears name → e = p.1 := fun e he hb =>
        by_contra fun hne => hnone ⟨e,hrest ▸ ⟨he,hne⟩,hb⟩
      obtain rfl := honly d hd hname
      exact ⟨text,p.2,rfl,hx,honly⟩

end Registry

namespace Hub

/-- An index that joins at any moment answers, at every later one, with the names that begin as
asked and that a registered command bears, each once and in the order of bytes. No attempt takes a
name out of the answer but the removal of the last command that bears it. -/
theorem completes_after (before after : List (Call κ)) :
    let h := empty.run before
    let i := h.followers.length
    let now := (h.step (.join .completion)).run after
    .close i ∉ after → ∃ c, now.followers[i]? = some (.completion c) ∧ ∀ start,
      let names := (c.sync now.registry).1.complete start
      names.Pairwise (fun a b => Text.encode a < Text.encode b) ∧
      (∀ name, name ∈ names ↔
        start.toList <+: name.toList ∧ ∃ d ∈ now.registry.registered, d.Bears name) ∧
      ∀ a, ∀ name ∈ names, name ∉ (c.sync (now.registry.after a)).1.complete start →
        ∃ text d r, a = .unregister text ∧ now.registry.unregister text = .ok (d,r) ∧
          d.Bears name ∧ ∀ e ∈ now.registry.registered, e.Bears name → e = d := by
  intro h i now hclose
  have hg : h.Good := good_empty.run before
  have hnow : now.Good := (hg.step (.join .completion)).run after
  obtain ⟨f,hf,-,hstays⟩ := hg.keeps_joined .completion after
  have hs := hstays.resolve_right hclose
  cases f with
  | completion c =>
    refine ⟨c,hf,fun start => ?_⟩
    have hmem : ∀ name, name ∈ (c.sync now.registry).1.complete start ↔
        start.toList <+: name.toList ∧ ∃ d ∈ now.registry.registered, d.Bears name :=
      fun _ => (hnow.completion_lists hf).mem_complete_iff hnow.sound.roster
    refine ⟨Completion.pairwise_complete _ _,hmem,fun a name hname hgone => ?_⟩
    have hlater : (now.step (.attempt a)).Good := hnow.step (.attempt a)
    obtain ⟨hstart,d,hd,hb⟩ := (hmem name).1 hname
    have hnone : ¬∃ e ∈ (now.registry.after a).registered, e.Bears name := fun hex =>
      hgone (((hlater.completion_lists hf).mem_complete_iff hlater.sound.roster).2 ⟨hstart,hex⟩)
    obtain ⟨text,r,ha,hr,honly⟩ := hnow.sound.exists_unregister hd hb hnone
    exact ⟨text,d,r,ha,hr,hb,honly⟩
  | _ => exact hs.elim

def partner : List (Call Unit) :=
  [.attempt (.register (.named "/tool/build" ())),.join .names]

/-- The other one follows, a question is asked in between, and the first one goes. -/
def sharing : List (Call Unit) :=
  [.attempt (.register (.named "/x/build" ())),.sync 1,.attempt (.unregister "tool/build"),
    .attempt (.register (.named "/build+" ()))]

/-- The name that was shared is left, and only the removal of the other command takes it away. -/
theorem completes_after_sharing :
    let now := ((empty.run partner).step (.join .completion)).run sharing
    .close (empty.run partner).followers.length ∉ sharing ∧
    ∃ c, now.followers[(empty.run partner).followers.length]? = some (.completion c) ∧
      "build" ∈ (c.sync now.registry).1.complete "b" ∧
      ∀ a, "build" ∉ (c.sync (now.registry.after a)).1.complete "b" →
        ∃ text d r, a = .unregister text ∧ now.registry.unregister text = .ok (d,r) ∧
          d.Bears "build" := by
  intro now
  have hlength : (empty.run partner).followers.length = 1 := by decide +kernel
  have hclose : .close (empty.run partner).followers.length ∉ sharing := by
    simp [hlength,sharing]
  have hpaths : now.registry.toList.map Registered.path =
      [⟨true,["build+"]⟩,⟨true,["x","build"]⟩] := by
    decide +kernel
  obtain ⟨d,hd,hpath⟩ : ∃ d ∈ now.registry.toList, d.path = ⟨true,["x","build"]⟩ := by
    simpa using List.mem_map.1 (hpaths ▸ List.mem_cons_of_mem _ List.mem_cons_self)
  obtain ⟨c,hc,hanswer⟩ := completes_after partner sharing hclose
  obtain ⟨-,hmem,hlast⟩ := hanswer "b"
  have hbuild : "build" ∈ (c.sync now.registry).1.complete "b" :=
    (hmem "build").2 ⟨by decide,d,hd,.inr (by rw [hpath]; rfl)⟩
  refine ⟨hclose,c,hc,hbuild,fun a hgone => ?_⟩
  obtain ⟨text,d,r,ha,hr,hb,-⟩ := hlast a "build" hbuild hgone
  exact ⟨text,d,r,ha,hr,hb⟩

end Hub
end CommandShell
