import Mathlib.Data.List.TakeWhile
import CommandShell.Proofs.Tree.Refinement

/-! Walking and normalising.
A walk takes `..` through parent links and stays at the root where there is no parent; a normal form
takes it back on the text and keeps what is left over. Where a walk arrives, the normal form leads
too. -/
namespace CommandShell
namespace Path

/-- The path without the `..` at its beginning. At the root these lead nowhere. -/
def clamped (p : Path) : Path := { p with segments := p.segments.dropWhile (· = "..") }

def kept (out : List String) : List String := out.reverse.dropWhile (· = "..")

theorem kept_append {names : List String} (k : Nat) (h : ∀ name ∈ names, name ≠ "..") :
    kept (names ++ List.replicate k "..") = names.reverse := by
  have hups : (List.replicate k "..").dropWhile (· = "..") = [] :=
    List.dropWhile_eq_nil_iff.2 fun name hm => by simpa using List.eq_of_mem_replicate hm
  have hnames : names.reverse.dropWhile (· = "..") = names.reverse := by
    rw [List.dropWhile_eq_self_iff]
    intro hl
    simpa using h _ (List.mem_reverse.1 (List.getElem_mem hl))
  rw [kept,List.reverse_append,List.reverse_replicate,List.dropWhile_append,hups]
  simpa using hnames

variable {out : List String} {name : String}

theorem kept_climb_up (h : Settled out) : kept (climb out "..") = (kept out).dropLast := by
  obtain ⟨names,k,rfl,hn⟩ := h
  rw [kept_append k fun name hm => (hn name hm).2]
  cases names with
  | nil =>
    have hups : climb ([] ++ List.replicate k "..") ".." = [] ++ List.replicate (k + 1) ".." :=
      foldl_climb_up 1 k
    rw [hups,kept_append (k + 1) (by simp)]
    rfl
  | cons last names =>
    rw [List.cons_append,climb_up_cons,if_neg (hn last (by simp)).2,
      kept_append k fun name hm => (hn name (by simp [hm])).2]
    simp

theorem kept_climb_regular (h : Settled out) (hd : name ≠ ".") (hu : name ≠ "..") :
    kept (climb out name) = kept out ++ [name] := by
  obtain ⟨names,k,rfl,hn⟩ := h
  have hnames : ∀ other ∈ name :: names, other ≠ ".." := by
    intro other hm
    rcases List.mem_cons.1 hm with rfl | hm
    · exact hu
    · exact (hn other hm).2
  rw [climb_regular _ hd hu,← List.cons_append,kept_append k hnames,
    kept_append k fun other hm => (hn other hm).2,List.reverse_cons]

theorem settled_reverse {q : List String} (hq : ∀ name ∈ q, IsName name) : Settled q.reverse :=
  ⟨q.reverse,0,by simp,fun name hm => (hq name (List.mem_reverse.1 hm)).2⟩

theorem kept_reverse {q : List String} (hq : ∀ name ∈ q, IsName name) : kept q.reverse = q := by
  have hnames : ∀ name ∈ q.reverse, name ≠ ".." :=
    fun name hm => (hq name (List.mem_reverse.1 hm)).2.2
  simpa using kept_append 0 hnames

/-- A path as it is seen from a node, in normal form. -/
theorem segments_normalize_join {q : List String} (hq : ∀ name ∈ q, IsName name) (p : Path) :
    ((⟨true,q⟩ : Path).join p).normalize.segments =
      (p.segments.foldl climb (if p.absolute then [] else q.reverse)).reverse := by
  cases h : p.absolute with
  | true => simp [join,normalize,h]
  | false =>
    have hclimb : q.foldl climb [] = q.reverse := by
      simpa using foldl_climb_regular [] fun name hm => (hq name hm).2
    simp [join,normalize,h,hclimb]

end Path

namespace Tree

variable {α : Type} {t : Tree α} {i j : NodeId} {q out : List String} {name : String} {p : Path}

theorem Linked.at?_climb (ht : t.Linked) (ho : Path.Settled out)
    (hi : t.at? (Path.kept out) = some i) (hname : name ≠ "/") (hj : t.get? i name = some j) :
    t.at? (Path.kept (Path.climb out name)) = some j := by
  rw [ht.get?_eq_at? hi,turn,if_neg hname] at hj
  split_ifs at hj with hd hu
  · rwa [hd,Path.climb_dot]
  · rwa [hu,Path.kept_climb_up ho]
  · rwa [Path.kept_climb_regular ho hd hu]

theorem Linked.at?_foldl_climb (ht : t.Linked) {segments : List String} (hs : "/" ∉ segments)
    (ho : Path.Settled out) (hi : t.at? (Path.kept out) = some i)
    (hj : segments.foldlM t.get? i = some j) :
    t.at? (Path.kept (segments.foldl Path.climb out)) = some j := by
  induction segments generalizing out i with
  | nil =>
    obtain rfl : i = j := Option.some.inj hj
    exact hi
  | cons name segments ih =>
    rw [List.mem_cons,not_or] at hs
    rw [List.foldlM_cons,Option.bind_eq_bind,Option.bind_eq_some_iff] at hj
    obtain ⟨m,hm,hj⟩ := hj
    exact ih hs.2 (Path.settled_climb ho name) (ht.at?_climb ho hi (Ne.symm hs.1) hm) hj

/-- Where a walk from the node at `q` arrives, the normal form leads. -/
theorem Linked.at?_of_find? (ht : t.Linked) (hq : t.at? q = some i) (hp : "/" ∉ p.segments)
    (h : t.find? i p = some j) :
    t.at? ((⟨true,q⟩ : Path).join p).normalize.clamped.segments = some j := by
  have hnames := ht.isName hq
  have hstart : t.at? (Path.kept (if p.absolute then [] else q.reverse)) =
      some (if p.absolute then rootId else i) := by
    split_ifs
    · rfl
    · rw [Path.kept_reverse hnames]
      exact hq
  have hsettled : Path.Settled (if p.absolute then [] else q.reverse) := by
    split_ifs
    · exact ⟨[],0,by simp⟩
    · exact Path.settled_reverse hnames
  obtain ⟨n,-,hwalk⟩ := Option.bind_eq_some_iff.1 h
  have hend := ht.at?_foldl_climb hp hsettled hstart hwalk
  rw [Path.kept,← Path.segments_normalize_join hnames] at hend
  exact hend

theorem Linked.find?_clamped (ht : t.Linked) (p : Path) :
    t.find? rootId p.clamped = t.find? rootId p := by
  obtain ⟨n,hn,hparent,-⟩ := ht.root
  have hup : t.get? rootId ".." = some rootId := by simp [get?,hn,hparent]
  have hfold : ∀ segments : List String,
      (segments.dropWhile (· = "..")).foldlM t.get? rootId = segments.foldlM t.get? rootId := by
    intro segments
    induction segments with
    | nil => rfl
    | cons name segments ih =>
      by_cases hname : name = ".."
      · rw [hname,List.dropWhile_cons_of_pos (by simp),List.foldlM_cons,hup,ih]
        rfl
      · rw [List.dropWhile_cons_of_neg (by simpa using hname)]
  have hfind : ∀ q : Path, t.find? rootId q = q.segments.foldlM t.get? rootId := by
    intro q
    simp [find?,hn]
  rw [hfind,hfind]
  exact hfold p.segments

theorem Linked.find?_fullPath (ht : t.Linked) {n : Node α} (hn : t.node? i = some n) :
    t.find? rootId (t.fullPath i) = some i := by
  obtain ⟨q,hq⟩ := ht.reached hn
  rw [ht.fullPath_eq hq,ht.find?_eq_at? true (ht.isName hq),hq]

/-- After every history of calls: the full path of a node leads to it, so no two nodes share one.
Where a walk from a node arrives, there is a node, and its full path is the normal form of the path
seen from where the walk began, without the `..` that would lead above the root. To look up that
normal form, with these `..` or without them, leads to the same node. -/
theorem lookup_agrees_after (history : List (Change α)) (hh : ∀ c ∈ history, c.path.Parsed) :
    let t := history.foldl Change.onTree empty
    (∀ id, (t.node? id).isSome → t.find? rootId (t.fullPath id) = some id) ∧
      (∀ id id', (t.node? id).isSome → (t.node? id').isSome → t.fullPath id = t.fullPath id' →
        id = id') ∧
      ∀ start, (t.node? start).isSome → ∀ p : Path, p.Parsed → ∀ n, t.find? start p = some n →
        (t.node? n).isSome ∧
          t.fullPath n = ((t.fullPath start).join p).normalize.clamped ∧
          t.find? rootId ((t.fullPath start).join p).normalize.clamped = some n ∧
          t.find? rootId ((t.fullPath start).join p).normalize = some n := by
  intro t
  have ht : t.Linked := (Change.shows_foldl history shows_empty hh).linked
  have hfull : ∀ id, (t.node? id).isSome → t.find? rootId (t.fullPath id) = some id := by
    intro id hid
    obtain ⟨n,hn⟩ := Option.isSome_iff_exists.1 hid
    exact ht.find?_fullPath hn
  refine ⟨hfull,fun id id' hid hid' he => ?_,fun start hstart p hp n h => ?_⟩
  · have hsame := hfull id hid
    rw [he,hfull id' hid'] at hsame
    exact (Option.some.inj hsame).symm
  · obtain ⟨m,hm⟩ := Option.isSome_iff_exists.1 hstart
    obtain ⟨q,hq⟩ := ht.reached hm
    have hend := ht.at?_of_find? hq (Path.slash_notMem_of_parsed hp) h
    have hpath : t.fullPath n = ((t.fullPath start).join p).normalize.clamped := by
      rw [ht.fullPath_eq hend,ht.fullPath_eq hq]
      exact Path.ext (by simp [Path.clamped]) rfl
    obtain ⟨k,hk⟩ := ht.live hend
    have hlookup : t.find? rootId ((t.fullPath start).join p).normalize.clamped = some n := by
      rw [← hpath]
      exact ht.find?_fullPath hk
    exact ⟨by simp [hk],hpath,hlookup,(ht.find?_clamped _).symm.trans hlookup⟩

/-- The slots of `/old/x` are used again for `/tool/build`. -/
def tools : List (Change Nat) :=
  [.add ⟨true,["old","x"]⟩ (.command 0),.remove ⟨true,["old","x"]⟩,
    .add ⟨true,["tool","build"]⟩ (.command 1),.add ⟨true,["tool","sub","x"]⟩ (.command 2)]

def withOld : Tree Nat :=
  ⟨#[some ⟨"",.group,none,.insert ∅ "old" 1,false⟩,some ⟨"old",.group,some 0,.insert ∅ "x" 2,true⟩,
    some ⟨"x",.command 0,some 1,∅,false⟩],[]⟩

def cleared : Tree Nat := ⟨#[some ⟨"",.group,none,∅,false⟩,none,none],[1,2]⟩

theorem remove_withOld : withOld.remove ⟨true,["old","x"]⟩ = .ok (.command 0,cleared) := by
  have hremove : withOld.remove ⟨true,["old","x"]⟩ =
      .ok (.command 0,((withOld.unlink (some 1) "x").release [2]).prune 1) := rfl
  have htree : ((withOld.unlink (some 1) "x").release [2]).prune 1 = cleared := by
    calc
      _ = (((withOld.unlink (some 1) "x").vacate 2).release []).prune 1 :=
        congrArg (prune · 1) (release_cons (n := ⟨"x",.command 0,some 1,∅,false⟩) rfl [])
      _ = prune ⟨#[some ⟨"",.group,none,.insert ∅ "old" 1,false⟩,
          some ⟨"old",.group,some 0,∅,true⟩,none],[2]⟩ 1 := congrArg (prune · 1) (release.eq_1 _)
      _ = cleared.prune 0 :=
        prune_of_parent (n := ⟨"old",.group,some 0,∅,true⟩) rfl (by decide) rfl rfl rfl
      _ = cleared := prune_of_not (n := ⟨"",.group,none,∅,false⟩) rfl fun h => h.1 rfl
  rw [hremove,htree]

theorem foldl_tools :
    tools.foldl Change.onTree empty = (tools.drop 2).foldl Change.onTree cleared := by
  have hadd : Change.onTree empty (.add ⟨true,["old","x"]⟩ (.command 0)) = withOld := rfl
  have hremove : Change.onTree withOld (.remove ⟨true,["old","x"]⟩) = cleared := by
    simp only [Change.onTree,remove_withOld]
  simp only [tools,List.foldl_cons,List.drop_succ_cons,List.drop_zero,hadd,hremove]

def roundabout : Path := ⟨false,["..","..","..","tool",".","build"]⟩

theorem lookup_agrees_after_roundabout :
    (∀ c ∈ tools, c.path.Parsed) ∧ roundabout.Parsed ∧
      let t := tools.foldl Change.onTree empty
      t.fullPath 3 = ⟨true,["tool","sub"]⟩ ∧ t.find? 3 roundabout = some 2 ∧
        ((t.fullPath 3).join roundabout).normalize = ⟨true,["..","tool","build"]⟩ ∧
        t.fullPath 2 = ((t.fullPath 3).join roundabout).normalize.clamped ∧
        t.find? rootId ((t.fullPath 3).join roundabout).normalize = some 2 := by
  have hh : ∀ c ∈ tools, c.path.Parsed := by
    intro c hc
    simp only [tools,List.mem_cons,List.not_mem_nil,or_false] at hc
    rcases hc with rfl | rfl | rfl | rfl
    · exact ⟨"/old/x",by decide +kernel⟩
    · exact ⟨"/old/x",by decide +kernel⟩
    · exact ⟨"/tool/build",by decide +kernel⟩
    · exact ⟨"/tool/sub/x",by decide +kernel⟩
  have hp : roundabout.Parsed := ⟨"../../../tool/./build",by decide +kernel⟩
  have hlive : ((tools.foldl Change.onTree empty).node? 3).isSome := by
    rw [foldl_tools]
    decide +kernel
  have hfind : (tools.foldl Change.onTree empty).find? 3 roundabout = some 2 := by
    rw [foldl_tools]
    decide +kernel
  have hplace : (tools.foldl Change.onTree empty).fullPath 3 = ⟨true,["tool","sub"]⟩ := by
    rw [foldl_tools]
    decide +kernel
  have hjoin : ((⟨true,["tool","sub"]⟩ : Path).join roundabout).normalize =
      ⟨true,["..","tool","build"]⟩ := by decide +kernel
  obtain ⟨-,-,hwalks⟩ := lookup_agrees_after tools hh
  obtain ⟨-,hpath,-,hlookup⟩ := hwalks 3 hlive roundabout hp 2 hfind
  exact ⟨hh,hp,hplace,hfind,hplace ▸ hjoin,hpath,hlookup⟩

end Tree
end CommandShell
