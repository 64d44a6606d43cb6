import CommandShell.Environment
import CommandShell.Text.Blank
import CommandShell.Value
import CommandShell.Word

/-! Expressions over session variables.
An expression is a name, perhaps with what to do when the variable is unset or empty. -/
namespace CommandShell

abbrev Evaluator := String → Environment → Except String Value

namespace Expression

/-- What stands in for a variable that is unset or empty. -/
inductive Fallback
  /-- `:-`, the operand instead of the value. -/
  | default (operand : String)
  /-- `:?`, a failure with the operand as its message. -/
  | required (operand : String)
  deriving DecidableEq

end Expression

structure Expression where
  name : String
  fallback : Option Expression.Fallback
  deriving DecidableEq

namespace Expression

/-- The operator and operand after a name. An operand is the rest of the text and holds no line
break. -/
def Fallback.parse? : List Char → Option Fallback
  | ':' :: '-' :: operand =>
    if '\n' ∈ operand then none else some (.default (String.ofList operand))
  | ':' :: '?' :: operand =>
    if '\n' ∈ operand then none else some (.required (String.ofList operand))
  | _ => none

def parse? (text : String) : Option Expression :=
  let s := Text.trim text.toList
  let name := String.ofList (s.takeWhile Word.continuesName)
  if s.head?.all (!Word.startsName ·) then none
  else match s.dropWhile Word.continuesName with
    | [] => some ⟨name,none⟩
    | rest => (Fallback.parse? rest).map fun f => ⟨name,some f⟩

/-- The value of the variable where it is set and not empty, and else what the fallback says. -/
def eval (x : Expression) (e : Environment) : Except String Value :=
  match e.get? x.name,x.fallback with
  | some value,fallback =>
    if value ≠ "" then .ok (.str value) else instead value fallback
  | none,fallback => instead none fallback
where
  instead (value : Option String) : Option Fallback → Except String Value
    | none => .ok ((value.map Value.str).getD .null)
    | some (.default operand) => .ok (.str operand)
    | some (.required "") => .error (x.name ++ ": parameter not set")
    | some (.required operand) => .error (x.name ++ ": " ++ operand)

end Expression

def Evaluator.ofVariables : Evaluator := fun text e =>
  match Expression.parse? text with
  | none => .error ("bad substitution: " ++ text)
  | some x => x.eval e

end CommandShell
