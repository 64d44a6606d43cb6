import CommandShell.Text.Cluster

/-! Texts shown between double quotes, so that every character of them can be told. -/
namespace CommandShell
namespace Text

/-- A character by its number, in lower-case hexadecimal digits without padding. -/
def byNumber (c : Char) : List Char :=
  ['\\','u','\x7b'] ++ Nat.toDigits 16 c.toNat ++ ['\x7d']

/-- The four letters that are left blank to fill up a syllable. -/
def fillers : List Char := ['\u115f','\u1160','\u3164','\uffa0']

/-- A character beyond ASCII that is shown by its number: a separator, an invisible or unassigned
character, one of private use, or one that belongs to the character before it. The modifier letters
are shown in any case. -/
def isNumbered (c : Char) : Bool :=
  match category c with
  | .cc | .cf | .cs | .co | .cn | .zs | .zl | .zp => true
  | .lm => false
  | _ => isExtender c || fillers.contains c

def escape (c : Char) : List Char :=
  if c = '"' then ['\\','"']
  else if c = '\\' then ['\\','\\']
  else if c = '\n' then ['\\','n']
  else if c = '\t' then ['\\','t']
  else if c = '\r' then ['\\','r']
  else if c = '\x00' then ['\\','0']
  else if c.toNat < 0x20 || (0x7F ≤ c.toNat && isNumbered c) then byNumber c
  else [c]

def quoted (s : String) : String :=
  String.ofList ('"' :: s.toList.flatMap escape ++ ['"'])

def quotedList (items : List String) : String :=
  "[" ++ ", ".intercalate (items.map quoted) ++ "]"

end Text
end CommandShell
