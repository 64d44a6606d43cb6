import CommandShell.Path
import CommandShell.Text.Quoted

/-! What is known of a command before it runs.
What it does is left to the type parameter, so that names and rules are the same for all
commands. -/
namespace CommandShell

structure Descriptor (κ : Type) where
  name : Path
  /-- The name is absolute and normalised. -/
  name_normal : name.fromRoot = name
  description : Option String
  /-- The arguments are handed over as they are, without being bound to options. -/
  verbatim : Bool
  action : κ

namespace Descriptor

variable {κ : Type}

/-- A command at `name`, read from the root. An empty text gives the root, which is no name. -/
def named (name : String) (action : κ) : Descriptor κ :=
  match Path.parse name with
  | .ok p => ⟨p.fromRoot,p.fromRoot_fromRoot,none,false,action⟩
  | .error _ => ⟨.root,rfl,none,false,action⟩

def simpleName (d : Descriptor κ) : String := d.name.segments.getLast?.getD ""

def inspect (d : Descriptor κ) : String :=
  let description := match d.description with
    | some text => "Some(" ++ Text.quoted text ++ ")"
    | none => "None"
  "CommandDescriptor \x7b name: NamePath \x7b absolute: " ++ toString d.name.absolute ++
    ", segments: " ++ Text.quotedList d.name.segments ++ " \x7d, description: " ++ description ++
    ", opaque_arguments: " ++ toString d.verbatim ++ ", .. \x7d"

end Descriptor
end CommandShell
