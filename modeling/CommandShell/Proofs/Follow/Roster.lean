import Mathlib.Data.Set.Insert
import CommandShell.Namespace
import CommandShell.Proofs.Catalog
import CommandShell.Proofs.PathText

/-! The commands of a registry as a set, and the events that change it.
No name in such a set lies on the way to another, so the set determines the whole namespace: a
command for each member and an implicit group for each proper prefix of a name. -/
namespace CommandShell

/-- The absolute names that a registry accepts. -/
def Path.Registrable (p : Path) : Prop := p.absolute = true ∧ Registry.isValidName p = true

theorem Segment.plain_of_isValid {name : String} (h : isValid name = true) :
    Path.Plain name ∧ Path.IsName name := by
  unfold isValid at h
  split at h
  case h_1 => cases h
  case h_2 c rest hl =>
    rw [Bool.and_eq_true,List.all_eq_true] at h
    have hc : c ≠ '/' ∧ c ≠ '.' := by
      constructor <;> rintro rfl <;> exact absurd h.1 (by decide)
    have hrest : '/' ∉ rest := fun hm => absurd (h.2 _ hm) (by decide)
    have hne : ∀ {d} ds, d ≠ c → name ≠ String.ofList (d :: ds) := by
      rintro d ds hd rfl
      simp only [String.toList_ofList,List.cons.injEq] at hl
      exact hd hl.1
    refine ⟨⟨?_,?_⟩,hne [] hc.1.symm,hne [] hc.2.symm,hne ['.'] hc.2.symm⟩
    · rintro rfl
      cases hl
    · rw [hl,List.mem_cons,not_or]
      exact ⟨hc.1.symm,hrest⟩

namespace Path.Registrable

variable {p : Path} (h : p.Registrable)
include h

theorem eq_mk : p = ⟨true,p.segments⟩ := Path.ext h.1 rfl

theorem ne_nil : p.segments ≠ [] := by
  have hv := h.2
  simp only [Registry.isValidName,Bool.and_eq_true,decide_eq_true_eq] at hv
  exact hv.1

theorem isValid : ∀ name ∈ p.segments, Segment.isValid name = true := by
  have hv := h.2
  simp only [Registry.isValidName,Bool.and_eq_true,List.all_eq_true] at hv
  exact hv.2

theorem plain : ∀ name ∈ p.segments, Path.Plain name :=
  fun name hm => (Segment.plain_of_isValid (h.isValid name hm)).1

theorem isName : ∀ name ∈ p.segments, Path.IsName name :=
  fun name hm => (Segment.plain_of_isValid (h.isValid name hm)).2

theorem parse_text : Path.parse p.text = .ok p := by
  rw [h.eq_mk]
  exact Path.parse_text h.ne_nil h.plain

theorem parsed : p.Parsed := ⟨p.text,h.parse_text⟩

theorem fromRoot_eq : p.fromRoot = p := by
  rw [h.eq_mk]
  exact Path.fromRoot_of_isName h.isName

theorem not_outside : p.segments.head? ≠ some ".." := fun he =>
  (h.isName ".." (List.mem_of_head? he)).2.2 rfl

theorem text_inj {q : Path} (hq : q.Registrable) (he : p.text = q.text) : p = q := by
  have hp := h.parse_text
  rw [he,hq.parse_text] at hp
  exact (Except.ok.inj hp).symm

end Path.Registrable

variable {κ : Type}

/-- Neither name lies on the way to the other. -/
def Path.Apart (p q : Path) : Prop := ¬p.segments <+: q.segments ∧ ¬q.segments <+: p.segments

/-- Names that can all stand in one namespace. -/
structure Roster (S : Set (Registered κ)) : Prop where
  registrable : ∀ c ∈ S, c.path.Registrable
  apart : ∀ c ∈ S, ∀ d ∈ S, c.path.segments <+: d.path.segments → c = d

theorem roster_empty : Roster (∅ : Set (Registered κ)) := ⟨by simp,by simp⟩

namespace Event

/-- The event tells of a change that a set of commands allows. -/
def Fits (S : Set (Registered κ)) : Event κ → Prop
  | .added c => c.path.Registrable ∧ ∀ d ∈ S, c.path.Apart d.path
  | .removed p => ∃ c ∈ S, c.path = p

def on (S : Set (Registered κ)) : Event κ → Set (Registered κ)
  | .added c => insert c S
  | .removed p => {c ∈ S | c.path ≠ p}

def FitAll (S : Set (Registered κ)) : List (Event κ) → Prop
  | [] => True
  | e :: events => e.Fits S ∧ FitAll (e.on S) events

theorem fitAll_append {S : Set (Registered κ)} {events more : List (Event κ)}
    (h : FitAll S events) (hm : FitAll (events.foldl on S) more) : FitAll S (events ++ more) := by
  induction events generalizing S with
  | nil => exact hm
  | cons e events ih => exact ⟨h.1,ih h.2 hm⟩

theorem fitAll_concat {S : Set (Registered κ)} {events : List (Event κ)} {e : Event κ}
    (h : FitAll S events) (he : e.Fits (events.foldl on S)) : FitAll S (events ++ [e]) :=
  fitAll_append h ⟨he,trivial⟩

theorem roster_on {S : Set (Registered κ)} (hS : Roster S) {e : Event κ} (he : e.Fits S) :
    Roster (e.on S) := by
  cases e with
  | added c =>
    refine ⟨?_,?_⟩
    · rintro d (rfl | hd)
      · exact he.1
      · exact hS.registrable d hd
    · rintro d (rfl | hd) d' (rfl | hd') hp
      · rfl
      · exact absurd hp (he.2 d' hd').1
      · exact absurd hp (he.2 d hd).2
      · exact hS.apart d hd d' hd' hp
  | removed p =>
    exact ⟨fun c hc => hS.registrable c hc.1,fun c hc d hd => hS.apart c hc.1 d hd.1⟩

theorem fitAll_map_added {l : List (Registered κ)} {S : Set (Registered κ)}
    (hl : ∀ c ∈ l, c.path.Registrable) (hp : l.Pairwise fun c d => d.path.Apart c.path)
    (hS : ∀ c ∈ l, ∀ d ∈ S, c.path.Apart d.path) :
    FitAll S (l.map .added) ∧ (l.map Event.added).foldl on S = S ∪ {c | c ∈ l} := by
  induction l generalizing S with
  | nil => exact ⟨trivial,by simp⟩
  | cons c l ih =>
    obtain ⟨hc,hp⟩ := List.pairwise_cons.1 hp
    have hrest : ∀ d ∈ l, ∀ d' ∈ insert c S, d.path.Apart d'.path := by
      rintro d hd d' (rfl | hd')
      · exact hc d hd
      · exact hS d (by simp [hd]) d' hd'
    obtain ⟨h1,h2⟩ := ih (S := insert c S) (fun d hd => hl d (by simp [hd])) hp hrest
    refine ⟨⟨⟨hl c (by simp),hS c (by simp)⟩,h1⟩,?_⟩
    rw [List.map_cons,List.foldl_cons]
    refine h2.trans (Set.ext fun d => ?_)
    simp [or_assoc,or_left_comm]

end Event
end CommandShell
