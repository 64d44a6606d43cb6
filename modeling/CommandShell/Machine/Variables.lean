import Std.Data.TreeMap

/-! The variables of processes.
A process is given texts, each with a name, an equals sign and a value, in the order of the
names. -/
namespace CommandShell
namespace Variables

def text (binding : String × String) : String := binding.1 ++ "=" ++ binding.2

/-- A text read back. A name has at least one character, so that an equals sign at the start of the
text is part of it. -/
def split? (text : String) : Option (String × String) :=
  match text.toList with
  | [] => none
  | c :: rest =>
    let name := rest.takeWhile (· ≠ '=')
    match rest.drop name.length with
    | [] => none
    | _ :: value => some (String.ofList (c :: name),String.ofList value)

/-- The texts for a process that is given `added` on top of `own`; of two variables with one name
the last one counts. -/
def merged (own added : List (String × String)) : List String :=
  let all := (own ++ added).foldl (fun vs (name,value) => vs.insert name value)
    (∅ : Std.TreeMap String String)
  all.toList.map text

def seen (pairs : List (String × String)) : List (String × String) :=
  (merged [] pairs).filterMap split?

end Variables
end CommandShell
