import CommandShell.Text.Utf8

/-! Bytes as text: a narrow text holds, for each byte, the character with that number.
Programs of the machine treat all text as bytes; this lets them be written with characters. -/
namespace CommandShell
namespace Text

def narrow (bytes : Bytes) : String := String.ofList (bytes.map fun b => Char.ofNat b.toNat)

def bytes (s : String) : Bytes := s.toList.map fun c => UInt8.ofNat c.toNat

def narrowed (s : String) : String := narrow (encode s)

end Text
end CommandShell
