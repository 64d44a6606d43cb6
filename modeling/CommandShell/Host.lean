import CommandShell.Session.Run

/-! Several sessions on one kernel.
A session sees the commands that another one registers and the files that its programs change, and
nothing else of it. -/
namespace CommandShell

structure Host (κ : Type) where
  kernel : Kernel κ
  disk : Disk
  /-- In the order in which they were opened. -/
  sessions : List Session

namespace Host

variable {κ α : Type}

def opened (kernel : Kernel κ) (disk : Disk) (s : Session) : Host κ := ⟨kernel,disk,[s]⟩

def session? (h : Host κ) (n : Nat) : Option Session := h.sessions[n]?

def join (h : Host κ) (s : Session) : Host κ := { h with sessions := h.sessions ++ [s] }

def run (h : Host κ) (n : Nat) (act : Act κ α) : Option (α × Host κ) :=
  (h.session? n).bind fun s =>
    (act ⟨h.kernel,h.disk,s⟩).map fun (a,shell) =>
      (a,⟨shell.kernel,shell.disk,h.sessions.set n shell.session⟩)

/-- Opens a session that starts from a copy of the one with the number `n`. -/
def fork (h : Host κ) (n : Nat) (console : Console) : Option (Host κ) :=
  (h.session? n).map fun s => h.join (s.fork console)

end Host
end CommandShell
