import CommandShell.Alias
import CommandShell.Environment
import CommandShell.Namespace

/-! What a name stands for in a session.
An alias comes before everything else; an absolute name is looked up from the root, any other in
the groups of the search path. -/
namespace CommandShell

inductive Resolution (κ : Type)
  | aliased (a : Alias)
  | command (path : Path) (r : Registered κ)
  | group (path : Path)

namespace Resolution

variable {κ : Type}

def ofNode? (t : Tree (Registered κ)) (id : NodeId) : Option (Resolution κ) :=
  (t.node? id).map fun n =>
    match n.payload with
    | .group => group (t.fullPath id)
    | .command r => command (t.fullPath id) r

/-- What `name` denotes below `base`, if that is a group. -/
def within? (t : Tree (Registered κ)) (base name : Path) : Option (Resolution κ) :=
  (t.find? Tree.rootId base).bind fun id =>
    if t.isGroup id then (t.find? id name).bind (ofNode? t) else none

/-- Looks `name` up; entries of the search path that are no groups are passed over. -/
def find? (aliases : AliasTable) (environment : Environment) (t : Tree (Registered κ))
    (name : String) : Option (Resolution κ) :=
  match aliases.get? name with
  | some text => some (aliased ⟨name,text⟩)
  | none =>
    match Path.parse name with
    | .error _ => none
    | .ok p =>
      if p.absolute then (t.find? Tree.rootId p).bind (ofNode? t)
      else environment.searchPath.findSome? fun entry =>
        within? t (environment.currentGroup.join entry).normalize p

end Resolution
end CommandShell
