import Mathlib.Data.List.Induction
import Mathlib.Logic.Relation
import CommandShell.Path

/-! The algebra of paths.
Joining is associative, and normal forms decide which paths lead to the same place: two have one
normal form exactly if pieces that lead nowhere can be taken out of them, or put in, until they are
the same. So it makes no difference which parts of a path are normalised before they are joined. -/
namespace CommandShell
namespace Path

/-- A piece that leads nowhere is taken out: `.`, or a name and the `..` that goes back from it. -/
inductive Shortens : List String → List String → Prop
  | dot (before after : List String) : Shortens (before ++ "." :: after) (before ++ after)
  | back (before after : List String) {name : String} (hd : name ≠ ".") (hu : name ≠ "..") :
      Shortens (before ++ name :: ".." :: after) (before ++ after)

/-- `.` nowhere, and `..` only at the beginning. -/
def Normal (p : Path) : Prop :=
  ∃ k names, p.segments = List.replicate k ".." ++ names ∧
    ∀ name ∈ names, name ≠ "." ∧ name ≠ ".."

variable {p q : Path} {s s' r r' out : List String} {name : String}

section Places

open Relation

theorem Shortens.append (h : Shortens s s') (before after : List String) :
    Shortens (before ++ s ++ after) (before ++ s' ++ after) := by
  cases h with
  | dot a b => simpa using Shortens.dot (before ++ a) (b ++ after)
  | back a b hd hu => simpa using Shortens.back (before ++ a) (b ++ after) hd hu

theorem eqvGen_surrounded (h : EqvGen Shortens s s') (before after : List String) :
    EqvGen Shortens (before ++ s ++ after) (before ++ s' ++ after) := by
  induction h with
  | rel a b h => exact .rel _ _ (h.append before after)
  | refl a => exact .refl _
  | symm a b _ ih => exact .symm _ _ ih
  | trans a b c _ _ ih ih' => exact .trans _ _ _ ih ih'

theorem eqvGen_append (h : EqvGen Shortens s s') (h' : EqvGen Shortens r r') :
    EqvGen Shortens (s ++ r) (s' ++ r') := by
  have hleft := eqvGen_surrounded h [] r
  have hright := eqvGen_surrounded h' s' []
  simp only [List.nil_append,List.append_nil] at hleft hright
  exact .trans _ _ _ hleft hright

/-- To take such a piece out makes no difference to the normal form. -/
theorem Shortens.foldl_climb (h : Shortens s s') (out : List String) :
    s.foldl climb out = s'.foldl climb out := by
  cases h with
  | dot before after => simp only [List.foldl_append,List.foldl_cons,climb_dot]
  | back before after hd hu =>
    simp only [List.foldl_append,List.foldl_cons,climb_regular _ hd hu,climb_up_cons,if_neg hu]

theorem foldl_climb_of_eqvGen (h : EqvGen Shortens s s') (out : List String) :
    s.foldl climb out = s'.foldl climb out := by
  induction h with
  | rel a b h => exact h.foldl_climb out
  | refl a => rfl
  | symm a b _ ih => exact ih.symm
  | trans a b c _ _ ih ih' => exact ih.trans ih'

theorem eqvGen_climb (h : Settled out) (name : String) :
    EqvGen Shortens (out.reverse ++ [name]) (climb out name).reverse := by
  obtain ⟨names,k,rfl,hn⟩ := h
  by_cases hd : name = "."
  · subst hd
    rw [climb_dot]
    exact .rel _ _ (by simpa using Shortens.dot (names ++ List.replicate k "..").reverse [])
  by_cases hu : name = ".."
  · subst hu
    cases names with
    | nil =>
      have hups : climb ([] ++ List.replicate k "..") ".." = List.replicate (k + 1) ".." :=
        foldl_climb_up 1 k
      rw [hups,List.nil_append,List.reverse_replicate,List.reverse_replicate,
        List.replicate_succ']
      exact .refl _
    | cons last names =>
      obtain ⟨hld,hlu⟩ := hn last (by simp)
      rw [List.cons_append,climb_up_cons,if_neg hlu]
      exact .rel _ _ (by
        simpa using Shortens.back (names ++ List.replicate k "..").reverse [] hld hlu)
  · rw [climb_regular _ hd hu,List.reverse_cons]
    exact .refl _

theorem eqvGen_normalize (p : Path) : EqvGen Shortens p.segments p.normalize.segments := by
  have hall : ∀ s : List String, EqvGen Shortens s (s.foldl climb []).reverse := by
    intro s
    induction s using List.reverseRecOn with
    | nil => exact .refl _
    | append_singleton s name ih =>
      rw [List.foldl_append]
      have hsettled : Settled (s.foldl climb []) := settled_foldl_climb s ⟨[],0,by simp⟩
      exact .trans _ _ _ (eqvGen_append ih (.refl [name])) (eqvGen_climb hsettled name)
  exact hall p.segments

/-- Normal forms tell the places that paths lead to. -/
theorem normalize_eq_iff :
    p.normalize = q.normalize ↔
      p.absolute = q.absolute ∧ EqvGen Shortens p.segments q.segments := by
  constructor
  · intro h
    have habs : p.normalize.absolute = q.normalize.absolute := by rw [h]
    refine ⟨habs,.trans _ _ _ (eqvGen_normalize p) ?_⟩
    rw [h]
    exact .symm _ _ (eqvGen_normalize q)
  · rintro ⟨habs,h⟩
    refine Path.ext habs ?_
    rw [normalize,normalize,foldl_climb_of_eqvGen h]

end Places

theorem normal_iff_settled : p.Normal ↔ Settled p.segments.reverse := by
  constructor
  · rintro ⟨k,names,he,hn⟩
    exact ⟨names.reverse,k,by simp [he],fun name hm => hn name (List.mem_reverse.1 hm)⟩
  · rintro ⟨names,k,he,hn⟩
    refine ⟨k,names.reverse,?_,fun name hm => hn name (List.mem_reverse.1 hm)⟩
    rw [← List.reverse_reverse p.segments,he,List.reverse_append,List.reverse_replicate]

theorem normal_normalize (p : Path) : p.normalize.Normal := by
  rw [normal_iff_settled,normalize,List.reverse_reverse]
  exact settled_foldl_climb _ ⟨[],0,by simp⟩

theorem normalize_eq_self_iff : p.normalize = p ↔ p.Normal := by
  refine ⟨fun h => h ▸ normal_normalize p,fun h => Path.ext rfl ?_⟩
  have hfold := foldl_climb_reverse (normal_iff_settled.1 h)
  rw [List.reverse_reverse] at hfold
  rw [normalize,hfold,List.reverse_reverse]

theorem normalize_normalize (p : Path) : p.normalize.normalize = p.normalize :=
  normalize_eq_self_iff.2 (normal_normalize p)

theorem join_of_absolute (p : Path) (h : q.absolute = true) : p.join q = q := if_pos h

theorem segments_join_of_relative (p : Path) (h : q.absolute = false) :
    (p.join q).segments = p.segments ++ q.segments := by
  simp [join,h]

theorem join_assoc (p q r : Path) : (p.join q).join r = p.join (q.join r) := by
  cases hr : r.absolute with
  | true => rw [join_of_absolute _ hr,join_of_absolute _ hr,join_of_absolute _ hr]
  | false =>
    cases hq : q.absolute with
    | true => rw [join_of_absolute p hq,join_of_absolute p (by simp [hr,hq])]
    | false =>
      have hqr : (q.join r).absolute = false := by simp [hr,hq]
      refine Path.ext (by simp [Bool.or_assoc]) ?_
      simp only [segments_join_of_relative _ hr,segments_join_of_relative _ hq,
        segments_join_of_relative _ hqr,List.append_assoc]

theorem here_join (p : Path) : here.join p = p := by
  cases h : p.absolute with
  | true => exact join_of_absolute _ h
  | false => exact Path.ext (by simp [here]) (segments_join_of_relative _ h)

theorem join_here (p : Path) : p.join here = p := by
  refine Path.ext (by simp [here]) ?_
  rw [segments_join_of_relative p rfl]
  exact List.append_nil _

theorem normalize_join_congr {p' q' : Path} (hp : p.normalize = p'.normalize)
    (hq : q.normalize = q'.normalize) : (p.join q).normalize = (p'.join q').normalize := by
  obtain ⟨hpa,hps⟩ := normalize_eq_iff.1 hp
  obtain ⟨hqa,hqs⟩ := normalize_eq_iff.1 hq
  cases h : q.absolute with
  | true => rw [join_of_absolute p h,join_of_absolute p' (hqa ▸ h),hq]
  | false =>
    refine normalize_eq_iff.2 ⟨by simp [hpa,hqa],?_⟩
    rw [segments_join_of_relative p h,segments_join_of_relative p' (hqa ▸ h)]
    exact eqvGen_append hps hqs

/-- A normalised path is normal and has the mark of the first one, normal paths are left alone, and
normal forms tell where paths lead. Joining is associative and leaves a path alone on the one side
or the other of `.`. Where a joined path leads is the same whether its parts are normalised or not,
the first, the second or both. -/
theorem normal_forms_of_joined (p q r : Path) :
    p.normalize.Normal ∧ p.normalize.absolute = p.absolute ∧ (p.normalize = p ↔ p.Normal) ∧
    p.normalize.normalize = p.normalize ∧
    (p.normalize = q.normalize ↔
      p.absolute = q.absolute ∧ Relation.EqvGen Shortens p.segments q.segments) ∧
    (p.join q).join r = p.join (q.join r) ∧ here.join p = p ∧ p.join here = p ∧
    (p.join q).normalize = (p.normalize.join q.normalize).normalize ∧
    (p.join q).normalize = (p.normalize.join q).normalize ∧
    (p.join q).normalize = (p.join q.normalize).normalize := by
  have hp := (normalize_normalize p).symm
  have hq := (normalize_normalize q).symm
  exact ⟨normal_normalize p,rfl,normalize_eq_self_iff,normalize_normalize p,normalize_eq_iff,
    join_assoc p q r,here_join p,join_here p,normalize_join_congr hp hq,
    normalize_join_congr hp rfl,normalize_join_congr rfl hq⟩

/-- The `..` of the second path go back from the first one, also those that are left over when it
is normalised alone. -/
example : ((⟨true,["a","b"]⟩ : Path).join ⟨false,["c","..","..","d"]⟩).normalize =
    ⟨true,["a","d"]⟩ := by
  decide +kernel

end Path
end CommandShell
