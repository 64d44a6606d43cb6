/-! The alphabet of command, group and alias names. -/
namespace CommandShell
namespace Segment

def mayStart (c : Char) : Bool := c.isAlphanum || c = '_' || c = '+' || c = '-'

def mayFollow (c : Char) : Bool :=
  mayStart c || c = '.' || c = ':' || c = '@' || c = ','

/-- A name is not empty, and neither blanks nor slashes nor a leading dot occur in it. -/
def isValid (name : String) : Bool :=
  match name.toList with
  | [] => false
  | c :: rest => mayStart c && rest.all mayFollow

end Segment
end CommandShell
