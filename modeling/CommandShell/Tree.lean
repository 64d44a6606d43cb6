import Std.Data.TreeMap
import CommandShell.Path

/-! The namespace as a tree of groups and commands.
Nodes live in numbered slots and know both their parent and their children. The slots of removed
nodes are used again, the one freed last first. -/
namespace CommandShell

inductive TreeError
  | duplicatePath (path : String)
  | notAGroup (path : String)
  | notFound (path : String)
  | emptyPath (path : String)
  | outsideRoot (path : String)
  | rootImmutable
  deriving DecidableEq

def TreeError.message : TreeError → String
  | .duplicatePath path => "path already exists: " ++ path
  | .notAGroup path => "not a group: " ++ path
  | .notFound path => "no such node: " ++ path
  | .emptyPath path => "path has no name: " ++ path
  | .outsideRoot path => "path escapes the root: " ++ path
  | .rootImmutable => "the root group cannot be removed"

/-- The number of a slot. It names a node only as long as the tree does not change. -/
abbrev NodeId := Nat

inductive Payload (α : Type)
  | group
  | command (c : α)
  deriving DecidableEq

namespace Payload

variable {α : Type}

def isGroup : Payload α → Bool
  | group => true
  | command _ => false

def command? : Payload α → Option α
  | group => none
  | command c => some c

end Payload

structure Node (α : Type) where
  name : String
  payload : Payload α
  parent : Option NodeId
  children : Std.TreeMap String NodeId
  /-- The group was made on the way to a deeper node and goes with its last child. -/
  implicit : Bool

structure Tree (α : Type) where
  slots : Array (Option (Node α))
  /-- Empty slots, the one to be used next first. -/
  free : List NodeId

namespace Tree

variable {α : Type}

def rootId : NodeId := 0

def empty : Tree α := ⟨#[some ⟨"",.group,none,∅,false⟩],[]⟩

instance : Inhabited (Tree α) := ⟨empty⟩

def node? (t : Tree α) (id : NodeId) : Option (Node α) := t.slots[id]?.join

def size (t : Tree α) : Nat := t.slots.countP Option.isSome

def isEmpty (t : Tree α) : Bool := (t.node? rootId).all (·.children.isEmpty)

def isGroup (t : Tree α) (id : NodeId) : Bool := (t.node? id).any (·.payload.isGroup)

/-- One name from the node `id`: `/` is the root, `.` the node itself, `..` its parent, the root
being its own, and anything else a child. -/
def get? (t : Tree α) (id : NodeId) (name : String) : Option NodeId :=
  (t.node? id).bind fun n =>
    if name = "/" then some rootId
    else if name = "." then some id
    else if name = ".." then some (n.parent.getD id)
    else n.children[name]?

/-- Walks `p` name by name, from the root if it is absolute and else from `id`. -/
def find? (t : Tree α) (id : NodeId) (p : Path) : Option NodeId :=
  let start := if p.absolute then rootId else id
  (t.node? start).bind fun _ => p.segments.foldlM t.get? start

def names (t : Tree α) : Nat → NodeId → List String
  | 0,_ => []
  | n + 1,id =>
    match t.node? id with
    | some node =>
      match node.parent with
      | some parent => t.names n parent ++ [node.name]
      | none => []
    | none => []

/-- No node lies deeper than there are slots. -/
def fullPath (t : Tree α) (id : NodeId) : Path := ⟨true,t.names t.slots.size id⟩

def locate (p : Path) : Except TreeError Path :=
  if p.fromRoot.segments.head? = some ".." then .error (.outsideRoot p.fromRoot.text)
  else .ok p.fromRoot

/-- Walks down the groups named by `path` as far as they exist; gives the last one and the names
that are missing. -/
def descend (t : Tree α) (id : NodeId) : List String → Except TreeError (NodeId × List String)
  | [] => .ok (id,[])
  | name :: path =>
    match t.get? id name with
    | none => .ok (id,name :: path)
    | some child =>
      if t.isGroup child then t.descend child path
      else .error (.notAGroup (t.fullPath child).text)

/-- Puts a node into the slot that was freed last, or into a new one. -/
def place (t : Tree α) (n : Node α) : NodeId × Tree α :=
  match t.free with
  | id :: free => (id,⟨t.slots.setIfInBounds id (some n),free⟩)
  | [] => (t.slots.size,⟨t.slots.push (some n),[]⟩)

def modifyNode (t : Tree α) (id : NodeId) (f : Node α → Node α) : Tree α :=
  { t with slots := t.slots.modify id (Option.map f) }

def attach (t : Tree α) (parent : NodeId) (name : String) (payload : Payload α)
    (implicit : Bool) : NodeId × Tree α :=
  let (id,t) := t.place ⟨name,payload,some parent,∅,implicit⟩
  (id,t.modifyNode parent fun n => { n with children := n.children.insert name id })

/-- Adds the groups named by `path` below `id`, each inside the one before. -/
def attachGroups (t : Tree α) (id : NodeId) : List String → NodeId × Tree α
  | [] => (id,t)
  | name :: path =>
    let (child,t) := t.attach id name .group true
    t.attachGroups child path

/-- Adds a node at `p` and the groups that are missing above it. Everything that can fail is
checked before anything changes. -/
def add (t : Tree α) (p : Path) (payload : Payload α) : Except TreeError (NodeId × Tree α) := do
  let q ← locate p
  match q.segments.getLast? with
  | none => throw (.emptyPath q.text)
  | some leaf =>
    let (id,missing) ← t.descend rootId q.segments.dropLast
    if missing = [] ∧ (t.get? id leaf).isSome then throw (.duplicatePath q.text)
    let (id,t) := t.attachGroups id missing
    return t.attach id leaf payload false

def unlink (t : Tree α) (parent : Option NodeId) (name : String) : Tree α :=
  match parent with
  | some id => t.modifyNode id fun n => { n with children := n.children.erase name }
  | none => t

def vacate (t : Tree α) (id : NodeId) : Tree α :=
  ⟨t.slots.setIfInBounds id none,id :: t.free⟩

theorem size_vacate_lt {t : Tree α} {id : NodeId} {n : Node α} (h : t.node? id = some n) :
    (t.vacate id).size < t.size := by
  have hj : t.slots[id]? = some (some n) := by
    simpa [node?,Option.join_eq_some_iff] using h
  obtain ⟨hi,hv⟩ := Array.getElem?_eq_some_iff.1 hj
  have hp : 0 < t.slots.countP Option.isSome := by
    rw [Array.countP_pos_iff]
    exact ⟨some n,by rw [← hv]; exact Array.getElem_mem hi,rfl⟩
  simp only [vacate,size,Array.setIfInBounds,hi,↓reduceDIte,Array.countP_set,hv,
    Option.isSome_some,Option.isSome_none,if_true,Bool.false_eq_true,if_false,Nat.add_zero]
  exact Nat.sub_lt hp Nat.zero_lt_one

theorem countP_modify_map (l : List (Option (Node α))) (id : NodeId) (f : Node α → Node α) :
    (l.modify id (Option.map f)).countP Option.isSome = l.countP Option.isSome := by
  induction l generalizing id with
  | nil => simp
  | cons o l ih => cases id <;> simp [List.countP_cons,ih]

@[simp] theorem size_modifyNode (t : Tree α) (id : NodeId) (f : Node α → Node α) :
    (t.modifyNode id f).size = t.size := by
  simp only [modifyNode,size,← Array.countP_toList,Array.toList_modify,countP_modify_map]

@[simp] theorem size_unlink (t : Tree α) (parent : Option NodeId) (name : String) :
    (t.unlink parent name).size = t.size := by
  cases parent <;> simp [unlink]

def release (t : Tree α) (stack : List NodeId) : Tree α :=
  match stack with
  | [] => t
  | id :: stack =>
    match h : t.node? id with
    | none => t.release stack
    | some n =>
      have := size_vacate_lt h
      (t.vacate id).release (n.children.values.reverse ++ stack)
termination_by (t.size,stack.length)

/-- Frees `id` and the groups above it, as long as they are implicit and empty. -/
def prune (t : Tree α) (id : NodeId) : Tree α :=
  match h : t.node? id with
  | none => t
  | some n =>
    if id ≠ rootId ∧ n.implicit ∧ n.children.isEmpty then
      have := size_vacate_lt h
      match n.parent with
      | some parent => ((t.vacate id).unlink n.parent n.name).prune parent
      | none => t.vacate id
    else t
termination_by t.size

/-- Removes the node at `p` with all that is below it, and the implicit groups that this leaves
empty. -/
def remove (t : Tree α) (p : Path) : Except TreeError (Payload α × Tree α) := do
  let q ← locate p
  match t.find? rootId q with
  | none => throw (.notFound q.text)
  | some id =>
    match t.node? id with
    | none => throw (.notFound q.text)
    | some n =>
      if id = rootId then throw .rootImmutable
      let t := (t.unlink n.parent n.name).release [id]
      return (n.payload,n.parent.elim t t.prune)

/-- The nodes from `id` down to depth `n`, each before its children and these in name order. -/
def below (t : Tree α) : Nat → NodeId → List NodeId
  | 0,_ => []
  | n + 1,id =>
    id :: ((t.node? id).elim [] (·.children.values)).flatMap (t.below n)

def entries (t : Tree α) : List (Path × Payload α) :=
  (t.below t.slots.size rootId).filterMap fun id =>
    (t.node? id).map fun n => (t.fullPath id,n.payload)

end Tree
end CommandShell
