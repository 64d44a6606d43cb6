import CommandShell.Text.Cluster

/-! Lines as they are typed: where they end, and what is erased in them. -/
namespace CommandShell
namespace Typed

/-- What was kept of a line: its characters in reverse, and the sizes of the clusters that can be
erased, the last one first. -/
structure Kept where
  text : List Char
  sizes : List Nat
  deriving DecidableEq

def clusterSize (cluster : List Char) : Nat :=
  (String.ofList cluster).utf8ByteSize % UInt8.size

def eraseBytes : Nat → List Char → List Char
  | 0,s => s
  | _,[] => []
  | n + 1,c :: s => eraseBytes (n + 1 - c.utf8Size) s

/-- One more cluster; a backspace erases the one before it. -/
def press (k : Kept) (cluster : List Char) : Kept :=
  if cluster = ['\x08'] then
    match k.sizes with
    | [] => k
    | n :: sizes => ⟨eraseBytes n k.text,sizes⟩
  else ⟨cluster.reverse ++ k.text,clusterSize cluster :: k.sizes⟩

def erased (s : List Char) : List Char := ((Text.clusters s).foldl press ⟨[],[]⟩).text.reverse

/-- A line without its line break. A carriage return belongs to the line break that it precedes. -/
def withoutBreak (s : List Char) : List Char :=
  match s.reverse with
  | '\n' :: '\r' :: rest => rest.reverse
  | '\n' :: rest => rest.reverse
  | _ => s

def line (text : String) : String := String.ofList (erased (withoutBreak text.toList))

/-- Splits after every line break; `current` is the line before the break, reversed. -/
def splitAfter (current : List Char) : List Char → List (List Char)
  | [] => if current = [] then [] else [current.reverse]
  | c :: rest =>
    if c = '\n' then ('\n' :: current).reverse :: splitAfter [] rest
    else splitAfter (c :: current) rest

/-- All lines of an input. The last one need not be ended by a line break. -/
def lines (input : String) : List String :=
  (splitAfter [] input.toList).map fun s => line (String.ofList s)

end Typed
end CommandShell
