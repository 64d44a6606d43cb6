/-! Results of commands.
A value is only ever shown to the host or turned into text when it is spliced into a line. -/
namespace CommandShell

inductive Value
  | null
  | bool (b : Bool)
  | int (n : Int64)
  | str (s : String)
  | list (items : List Value)
  /-- A process status, 0 for success. -/
  | status (code : Int32)

namespace Value

instance : Inhabited Value := ⟨null⟩

mutual

/-- The text of a value. Items of a list are separated by one blank, at every depth. -/
def text : Value → String
  | null => ""
  | bool b => if b then "true" else "false"
  | int n => toString n.toInt
  | str s => s
  | list items => " ".intercalate (texts items)
  | status code => toString code.toInt

def texts : List Value → List String
  | [] => []
  | v :: vs => v.text :: texts vs

end

def isNull : Value → Bool
  | null => true
  | _ => false

/-- What a session shows of the result of a line: nothing for nulls and statuses, a line for each
item of a list, and one line for anything else. -/
def display : Value → List String
  | null | status _ => []
  | list items => texts items
  | v => [v.text]

end Value
end CommandShell
