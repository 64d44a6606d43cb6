import Mathlib.Data.List.Forall2
import CommandShell.External
import CommandShell.Proofs.SortedMap

/-! Which directory a program comes from.
The first directory that has an executable file of a name provides it. Nothing else that stands in a
directory matters, nor the order in which it is listed. -/
namespace CommandShell

namespace Text

theorem decode?_eq_some_iff {bytes : Bytes} {s : String} :
    decode? bytes = some s ↔ bytes = encode s := by
  unfold decode? String.fromUTF8?
  constructor
  · intro h
    split_ifs at h with hv
    obtain rfl := Option.some.inj h
    rfl
  · rintro rfl
    exact dif_pos s.isValidUTF8

end Text

def DirectoryEntry.isProgram (e : DirectoryEntry) : Bool :=
  e.executable && (Text.decode? e.name).any Segment.isValid

namespace Directory

variable {d d' : Directory} {name : String}

/-- The directory can be read and has an executable file of this name. -/
def Holds (d : Directory) (name : String) : Prop :=
  ⟨Text.encode name,true⟩ ∈ d.entries.getD []

instance (d : Directory) (name : String) : Decidable (d.Holds name) :=
  inferInstanceAs (Decidable (_ ∈ _))

def provided? (d : Directory) (name : String) : Option String :=
  if Segment.isValid name = true ∧ d.Holds name then some (d.file name) else none

theorem provided?_eq_some_iff {file : String} : d.provided? name = some file ↔
    Segment.isValid name = true ∧ d.Holds name ∧ file = d.file name := by
  rw [provided?,Option.ite_none_right_eq_some,Option.some.injEq,and_assoc,
    eq_comm (a := d.file name)]

theorem provided?_eq_none_iff (hv : Segment.isValid name = true) :
    d.provided? name = none ↔ ¬d.Holds name := by
  simp [provided?,hv]

/-- The two differ at most in the order of their entries. -/
def Relisted (d d' : Directory) : Prop :=
  d.path = d'.path ∧ Option.Rel List.Perm d.entries d'.entries

theorem Relisted.provided?_eq (h : d.Relisted d') (name : String) :
    d.provided? name = d'.provided? name := by
  obtain ⟨path,entries⟩ := d
  obtain ⟨path',entries'⟩ := d'
  obtain ⟨rfl,he⟩ : path = path' ∧ Option.Rel List.Perm entries entries' := h
  cases he with
  | none => rfl
  | some hperm => simp only [provided?,Holds,Option.getD_some,hperm.mem_iff,file]

def programs (d : Directory) : Directory :=
  { d with entries := d.entries.map (·.filter DirectoryEntry.isProgram) }

theorem provided?_programs (d : Directory) (name : String) :
    d.programs.provided? name = d.provided? name := by
  have hprogram : Segment.isValid name = true →
      DirectoryEntry.isProgram ⟨Text.encode name,true⟩ = true := by
    intro hv
    simp [DirectoryEntry.isProgram,Text.decode?_eq_some_iff.2 rfl,hv]
  have hholds : Segment.isValid name = true → (d.programs.Holds name ↔ d.Holds name) := by
    intro hv
    unfold Holds programs
    cases d.entries with
    | none => rfl
    | some entries => simp [hprogram hv]
  by_cases hv : Segment.isValid name = true
  · simp only [provided?,hholds hv]
    rfl
  · simp [provided?,hv]

theorem provided?_of_unreadable (h : d.entries = none) (name : String) :
    d.provided? name = none := by
  simp [provided?,Holds,h]

end Directory

namespace Programs

variable {directories others : List Directory}

theorem getElem?_addEntry (found : Programs) (d : Directory) (e : DirectoryEntry) (name : String) :
    (addEntry d found e)[name]? = found[name]?.or
      (if Segment.isValid name = true ∧ e = ⟨Text.encode name,true⟩ then some (d.file name)
        else none) := by
  obtain ⟨bytes,executable⟩ := e
  unfold addEntry
  cases hd : Text.decode? bytes with
  | none =>
    have hne : bytes ≠ Text.encode name := by
      rintro rfl
      rw [Text.decode?_eq_some_iff.2 rfl] at hd
      cases hd
    simp [hne]
  | some other =>
    obtain rfl := Text.decode?_eq_some_iff.1 hd
    by_cases ho : other = name
    · subst ho
      cases hf : found[other]? <;> cases hv : Segment.isValid other <;> cases executable <;>
        simp [hf,hv,Std.TreeMap.contains_eq_isSome_getElem?]
    -- no two texts have the same bytes, so under `name` nothing changes
    · have hne : Text.encode other ≠ Text.encode name := by
        intro he
        have hback := Text.decode?_eq_some_iff.2 he
        rw [hd] at hback
        exact ho (Option.some.inj hback)
      simp only [DirectoryEntry.mk.injEq,hne,false_and,and_false,if_false,Option.or_none]
      split_ifs
      · rfl
      · rw [SortedMap.getElem?_insert,if_neg ho]

theorem getElem?_foldl_addEntry (d : Directory) (entries : List DirectoryEntry) (found : Programs)
    (name : String) : (entries.foldl (addEntry d) found)[name]? = found[name]?.or
      (if Segment.isValid name = true ∧ ⟨Text.encode name,true⟩ ∈ entries then some (d.file name)
        else none) := by
  induction entries generalizing found with
  | nil => simp
  | cons e entries ih =>
    rw [List.foldl_cons,ih,getElem?_addEntry,Option.or_assoc]
    by_cases he : e = ⟨Text.encode name,true⟩
    · by_cases hv : Segment.isValid name = true <;> simp [he,hv]
    · simp [he,Ne.symm he]

/-- A directory adds what it provides, under the names that are not taken. -/
theorem getElem?_addDirectory (found : Programs) (d : Directory) (name : String) :
    (found.addDirectory d)[name]? = found[name]?.or (d.provided? name) :=
  getElem?_foldl_addEntry d (d.entries.getD []) found name

theorem getElem?_foldl_addDirectory (directories : List Directory) (found : Programs)
    (name : String) : (directories.foldl addDirectory found)[name]? =
      found[name]?.or (directories.findSome? (·.provided? name)) := by
  induction directories generalizing found with
  | nil => simp
  | cons d directories ih =>
    rw [List.foldl_cons,ih,getElem?_addDirectory,Option.or_assoc,List.findSome?_cons]
    cases d.provided? name <;> rfl

theorem getElem?_scan (directories : List Directory) (name : String) :
    (scan directories)[name]? = directories.findSome? (·.provided? name) := by
  rw [scan,getElem?_foldl_addDirectory]
  simp

/-- What is found depends on what the directories provide, name by name. -/
theorem toList_scan_eq
    (h : ∀ name, directories.findSome? (·.provided? name) = others.findSome? (·.provided? name)) :
    (scan directories).toList = (scan others).toList := by
  refine (Std.TreeMap.Equiv.of_forall_constGet?_eq fun name => ?_).toList_eq
  change (scan directories)[name]? = (scan others)[name]?
  rw [getElem?_scan,getElem?_scan,h]

theorem findSome?_relisted (h : List.Forall₂ Directory.Relisted directories others)
    (name : String) :
    directories.findSome? (·.provided? name) = others.findSome? (·.provided? name) := by
  induction h with
  | nil => rfl
  | cons hd _ ih => rw [List.findSome?_cons,List.findSome?_cons,hd.provided?_eq,ih]

theorem findSome?_programs (directories : List Directory) (name : String) :
    ((directories.filter (·.entries.isSome)).map Directory.programs).findSome? (·.provided? name) =
      directories.findSome? (·.provided? name) := by
  induction directories with
  | nil => rfl
  | cons d directories ih =>
    cases he : d.entries with
    | none =>
      rw [List.filter_cons_of_neg (by simp [he]),ih,List.findSome?_cons,
        Directory.provided?_of_unreadable he]
    | some entries =>
      rw [List.filter_cons_of_pos (by simp [he]),List.map_cons,List.findSome?_cons,
        List.findSome?_cons,Directory.provided?_programs,ih]

/-- A name leads to the file of the first directory that has an executable file of this name, if it
can be the name of a command, and to nothing if no directory has one. What is found is the same in
whatever order each directory lists its entries, and the same without the directories that cannot be
read and without all entries that are not executable or whose names are no text or no names of
commands. -/
theorem scan_by_precedence (directories : List Directory) :
    (∀ name file, (scan directories)[name]? = some file ↔ Segment.isValid name = true ∧
      ∃ before d after, directories = before ++ d :: after ∧ d.Holds name ∧
        (∀ b ∈ before, ¬b.Holds name) ∧ file = d.file name) ∧
    (∀ others, List.Forall₂ Directory.Relisted directories others →
      (scan directories).toList = (scan others).toList) ∧
    (scan ((directories.filter (·.entries.isSome)).map Directory.programs)).toList =
      (scan directories).toList := by
  refine ⟨fun name file => ?_,fun others h => toList_scan_eq (findSome?_relisted h),
    toList_scan_eq (findSome?_programs directories)⟩
  rw [getElem?_scan,List.findSome?_eq_some_iff]
  constructor
  · rintro ⟨before,d,after,hsplit,hd,hbefore⟩
    obtain ⟨hv,hholds,hfile⟩ := Directory.provided?_eq_some_iff.1 hd
    exact ⟨hv,before,d,after,hsplit,hholds,
      fun b hb => (Directory.provided?_eq_none_iff hv).1 (hbefore b hb),hfile⟩
  · rintro ⟨hv,before,d,after,hsplit,hholds,hbefore,hfile⟩
    exact ⟨before,d,after,hsplit,Directory.provided?_eq_some_iff.2 ⟨hv,hholds,hfile⟩,
      fun b hb => (Directory.provided?_eq_none_iff hv).2 (hbefore b hb)⟩

def shelf : List Directory :=
  [⟨"gone",none⟩,
    ⟨"notes",some [⟨Text.encode "tool",false⟩,⟨Text.encode "other",true⟩]⟩,
    ⟨"bin",some [⟨Text.encode ".hidden",true⟩,⟨[0xFF],true⟩,⟨Text.encode "tool",true⟩]⟩,
    ⟨"more/",some [⟨Text.encode "tool",true⟩,⟨Text.encode "late",true⟩]⟩]

def shelfReversed : List Directory :=
  shelf.map fun d => { d with entries := d.entries.map List.reverse }

theorem scan_by_precedence_shelf :
    List.Forall₂ Directory.Relisted shelf shelfReversed ∧
      (scan shelf).toList = (scan shelfReversed).toList ∧
      (scan shelf)["tool"]? = some "bin/tool" ∧ (scan shelf)["late"]? = some "more/late" := by
  have hlisted : List.Forall₂ Directory.Relisted shelf shelfReversed :=
    .cons ⟨rfl,.none⟩ <| .cons ⟨rfl,.some (List.reverse_perm _).symm⟩ <|
      .cons ⟨rfl,.some (List.reverse_perm _).symm⟩ <|
      .cons ⟨rfl,.some (List.reverse_perm _).symm⟩ .nil
  obtain ⟨hfound,horder,-⟩ := scan_by_precedence shelf
  have htool : (scan shelf)["tool"]? = some "bin/tool" :=
    (hfound _ _).2 ⟨by decide +kernel,shelf.take 2,shelf[2],shelf.drop 3,by decide +kernel,
      by decide +kernel,by decide +kernel,by decide +kernel⟩
  have hlate : (scan shelf)["late"]? = some "more/late" :=
    (hfound _ _).2 ⟨by decide +kernel,shelf.take 3,shelf[3],shelf.drop 4,by decide +kernel,
      by decide +kernel,by decide +kernel,by decide +kernel⟩
  exact ⟨hlisted,horder _ hlisted,htool,hlate⟩

end Programs
end CommandShell
