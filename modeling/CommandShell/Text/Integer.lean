/-! Whole numbers in decimal digits, read within bounds. -/
namespace CommandShell
namespace Integer

inductive Fault
  | empty
  | digit
  | tooLarge
  | tooSmall
  deriving DecidableEq

def Fault.message : Fault → String
  | empty => "cannot parse integer from empty string"
  | digit => "invalid digit found in string"
  | tooLarge => "number too large to fit in target type"
  | tooSmall => "number too small to fit in target type"

/-- Reads digits after `n`. Whichever of a wrong sign and a number beyond the bound comes first is
reported. -/
def digits (bound : Nat) (beyond : Fault) (n : Nat) : List Char → Except Fault Nat
  | [] => .ok n
  | c :: rest =>
    if !c.isDigit then .error .digit
    else
      let m := n * 10 + (c.toNat - '0'.toNat)
      if bound < m then .error beyond else digits bound beyond m rest

/-- A number from `low` to `high`, with a sign if `low` is negative; a plus sign may always stand
in front. -/
def parse (low high : Int) (text : String) : Except Fault Int :=
  match text.toList with
  | [] => .error .empty
  | ['+'] | ['-'] => .error .digit
  | '+' :: rest => (digits high.toNat .tooLarge 0 rest).map Int.ofNat
  | '-' :: rest =>
    if low < 0 then (digits (-low).toNat .tooSmall 0 rest).map fun n => -Int.ofNat n
    else .error .digit
  | rest => (digits high.toNat .tooLarge 0 rest).map Int.ofNat

end Integer
end CommandShell
