/-! Slash-separated names of commands and groups.
A path is a list of non-empty segments together with the mark that it starts at the root;
`.` and `..` stay ordinary segments until the path is normalised. -/
namespace CommandShell

inductive PathError
  | empty
  deriving DecidableEq

def PathError.message : PathError → String
  | .empty => "empty path"

@[ext] structure Path where
  absolute : Bool
  segments : List String
  deriving DecidableEq

namespace Path

def root : Path := ⟨true,[]⟩

/-- The relative path without segments, written `.`. -/
def here : Path := ⟨false,[]⟩

/-- Segments are what stands between slashes; empty ones are dropped, so `a//b/` names `a/b`. -/
def parse (text : String) : Except PathError Path :=
  if text.toList = [] then .error .empty
  else .ok
    { absolute := text.toList.head? = some '/'
      segments := ((text.toList.splitOn '/').filter (· ≠ [])).map String.ofList }

/-- The written form. The two paths without segments have spellings of their own. -/
def text (p : Path) : String :=
  match p.absolute,p.segments with
  | true,[] => "/"
  | false,[] => "."
  | true,names => "/" ++ "/".intercalate names
  | false,names => "/".intercalate names

instance : ToString Path := ⟨text⟩

def isRoot (p : Path) : Bool := p.absolute && p.segments.isEmpty

/-- One segment more of a normal form kept in reverse: `.` adds nothing, `..` takes back the last
regular segment and stays where there is none. -/
def climb : List String → String → List String
  | out,"." => out
  | [],".." => [".."]
  | last :: out,".." => if last = ".." then ".." :: last :: out else out
  | out,name => name :: out

/-- The same place without `.`, and with `..` only where nothing is left to go back from. -/
def normalize (p : Path) : Path :=
  { p with segments := (p.segments.foldl climb []).reverse }

def parent? (p : Path) : Option Path :=
  if p.segments = [] then none else some { p with segments := p.segments.dropLast }

def child (p : Path) (name : String) : Path :=
  { p with segments := p.segments ++ [name] }

/-- The path `q` as seen from `p`; an absolute `q` stands by itself. -/
def join (p q : Path) : Path :=
  if q.absolute then q else { p with segments := p.segments ++ q.segments }

/-- Relative paths before absolute ones, then segment by segment. -/
def order (p q : Path) : Ordering :=
  (compare p.absolute q.absolute).then (compare p.segments q.segments)

def fromRoot (p : Path) : Path := (root.join p).normalize

theorem climb_dot (out : List String) : climb out "." = out := by
  cases out <;> simp [climb]

theorem climb_up_nil : climb [] ".." = [".."] := by
  simp [climb]

theorem climb_up_cons (last : String) (out : List String) :
    climb (last :: out) ".." = if last = ".." then ".." :: last :: out else out := by
  simp [climb]

theorem climb_regular {name : String} (out : List String) (hd : name ≠ ".") (hu : name ≠ "..") :
    climb out name = name :: out := by
  unfold climb
  split <;> simp_all

theorem foldl_climb_regular {segments : List String} (out : List String)
    (h : ∀ name ∈ segments, name ≠ "." ∧ name ≠ "..") :
    segments.foldl climb out = segments.reverse ++ out := by
  induction segments generalizing out with
  | nil => rfl
  | cons name segments ih =>
    have hn := h name (by simp)
    rw [List.foldl_cons,climb_regular _ hn.1 hn.2,ih _ fun other hm => h other (by simp [hm])]
    simp

theorem foldl_climb_up (k j : Nat) :
    (List.replicate k "..").foldl climb (List.replicate j "..") = List.replicate (j + k) ".." := by
  induction k generalizing j with
  | zero => rfl
  | succ k ih =>
    have hc : climb (List.replicate j "..") ".." = List.replicate (j + 1) ".." := by
      cases j with
      | zero => exact climb_up_nil
      | succ j => simp [List.replicate_succ,climb_up_cons]
    rw [List.replicate_succ,List.foldl_cons,hc,ih (j + 1)]
    congr 1
    omega

/-- A normal form in reverse: regular segments, then what is left of `..`. -/
def Settled (out : List String) : Prop :=
  ∃ names k, out = names ++ List.replicate k ".." ∧ ∀ name ∈ names, name ≠ "." ∧ name ≠ ".."

theorem settled_climb {out : List String} (h : Settled out) (name : String) :
    Settled (climb out name) := by
  obtain ⟨names,k,rfl,hn⟩ := h
  by_cases hd : name = "."
  · subst hd
    rw [climb_dot]
    exact ⟨names,k,rfl,hn⟩
  by_cases hu : name = ".."
  · subst hu
    cases names with
    | nil =>
      refine ⟨[],k + 1,?_,by simp⟩
      exact (foldl_climb_up 1 k)
    | cons last names =>
      rw [List.cons_append,climb_up_cons,if_neg (hn last (by simp)).2]
      exact ⟨names,k,rfl,fun name hm => hn name (by simp [hm])⟩
  · rw [climb_regular _ hd hu]
    refine ⟨name :: names,k,rfl,fun other hm => ?_⟩
    rcases List.mem_cons.1 hm with rfl | hm
    · exact ⟨hd,hu⟩
    · exact hn other hm

theorem settled_foldl_climb (segments : List String) {out : List String} (h : Settled out) :
    Settled (segments.foldl climb out) := by
  induction segments generalizing out with
  | nil => exact h
  | cons name segments ih => exact ih (settled_climb h name)

theorem foldl_climb_reverse {out : List String} (h : Settled out) :
    out.reverse.foldl climb [] = out := by
  obtain ⟨names,k,rfl,hn⟩ := h
  have hup := foldl_climb_up k 0
  rw [List.replicate_zero,Nat.zero_add] at hup
  rw [List.reverse_append,List.reverse_replicate,List.foldl_append,hup,
    foldl_climb_regular _ fun name hm => hn name (List.mem_reverse.1 hm),List.reverse_reverse]

@[simp] theorem absolute_normalize (p : Path) : p.normalize.absolute = p.absolute := rfl

@[simp] theorem absolute_join (p q : Path) :
    (p.join q).absolute = (q.absolute || p.absolute) := by
  cases h : q.absolute <;> simp [join,h]

@[simp] theorem absolute_fromRoot (p : Path) : p.fromRoot.absolute = true := by
  simp [fromRoot,root]

theorem segments_fromRoot (p : Path) :
    p.fromRoot.segments = (p.segments.foldl climb []).reverse := by
  cases h : p.absolute <;> simp [fromRoot,join,normalize,root,h]

theorem fromRoot_fromRoot (p : Path) : p.fromRoot.fromRoot = p.fromRoot := by
  have hs : Settled (p.segments.foldl climb []) := settled_foldl_climb _ ⟨[],0,by simp⟩
  refine Path.ext (by simp) ?_
  rw [segments_fromRoot,segments_fromRoot,foldl_climb_reverse hs]

end Path
end CommandShell
