/-! The text that explains how a command is called. -/
namespace CommandShell

structure Usage where
  line : String
  summary : String
  /-- Names of positions, each with its explanation. -/
  positions : List (String × String)
  /-- Names of flags, each with its explanation. -/
  flags : List (String × String)

namespace Usage

/-- Fills lines of at most `width` characters with words, the current line being `line`. -/
def fill (width : Nat) (line : String) : List String → List String
  | [] => [line]
  | word :: rest =>
    if line.length + 1 + word.length ≤ width then fill width (line ++ " " ++ word) rest
    else line :: fill width word rest

def wrap (width : Nat) (text : String) : List String :=
  match (text.toList.splitOn ' ').map String.ofList with
  | [] => []
  | word :: rest => fill width word rest

def row (r : String × String) : String :=
  let indent := String.ofList (List.replicate 20 ' ')
  "  " ++ r.1 ++ String.ofList (List.replicate (18 - r.1.length) ' ') ++
    ("\n" ++ indent).intercalate (wrap 60 r.2) ++ "\n"

def text (u : Usage) : String :=
  let rows (title : String) (rs : List (String × String)) :=
    title ++ ":\n" ++ String.join (rs.map row)
  "Usage: " ++ u.line ++ "\n\n" ++ u.summary ++ "\n\n" ++
    (if u.positions.isEmpty then "" else rows "Positional Arguments" u.positions ++ "\n") ++
    rows "Options" (u.flags ++ [("--help, help","display usage information")])

end Usage
end CommandShell
