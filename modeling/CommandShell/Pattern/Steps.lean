/-! Which positions of a text lead to which others.
The positions reached from one are the bits of a number, so that a step costs little however many
ways there are to make it. -/
namespace CommandShell

/-- Row `i` holds bit `j` if position `i` leads to position `j`. -/
structure Steps where
  rows : Array Nat
  deriving DecidableEq

namespace Steps

def build (n : Nat) (row : Nat → Nat) : Steps := ⟨(Array.range n).map row⟩

def stayIf (n : Nat) (p : Nat → Bool) : Steps := build n fun i => if p i then 1 <<< i else 0

def stay (n : Nat) : Steps := stayIf n fun _ => true

def onwardIf (n : Nat) (p : Nat → Bool) : Steps :=
  build n fun i => if p i then 1 <<< (i + 1) else 0

def get (s : Steps) (i : Nat) : Nat := s.rows[i]?.getD 0

def union (a b : Steps) : Steps := build a.rows.size fun i => a.get i ||| b.get i

/-- What is reached from the positions given as bits. -/
def image (s : Steps) (positions : Nat) : Nat :=
  (List.range s.rows.size).foldl (fun found i =>
    if positions.testBit i then found ||| s.get i else found) 0

def comp (a b : Steps) : Steps := build a.rows.size fun i => b.image (a.get i)

def power (s : Steps) (k : Nat) : Steps :=
  if h : k = 0 then stay s.rows.size
  else
    let half := power (comp s s) (k / 2)
    if k % 2 = 1 then comp s half else half
termination_by k

def upTo (s : Steps) (k : Nat) : Steps := power (union (stay s.rows.size) s) k

/-- Any number of steps; no position takes more steps to reach than there are positions. -/
def closure (s : Steps) : Steps := upTo s s.rows.size

def any (s : Steps) : Bool := s.rows.any (· ≠ 0)

end Steps
end CommandShell
