/-! The pieces into which a line is cut.
Pieces with neither `space` nor `separator` between them belong to one argument. -/
namespace CommandShell

inductive Token
  /-- Bare text, in which substitutions are still to be made. -/
  | plain (text : String)
  /-- Text from between double quotes; substitutions are made and blanks kept. -/
  | quoted (text : String)
  /-- Text that stands for itself: single-quoted text, escaped characters, operators. -/
  | verbatim (text : String)
  /-- Blanks between arguments. -/
  | space
  /-- The end of a statement, `;` or a line break. -/
  | separator
  deriving DecidableEq

inductive Unfinished
  | quote
  | command
  | parameter
  deriving DecidableEq

def Unfinished.message : Unfinished → String
  | .quote => "unterminated quote"
  | .command => "unterminated command substitution"
  | .parameter => "unterminated parameter substitution"

end CommandShell
