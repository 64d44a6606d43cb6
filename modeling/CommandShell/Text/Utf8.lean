/-! Bytes read as UTF-8.
`decode` never fails: each maximal part of the input that is no character becomes one replacement
character. `decode?` reads well-formed input only. -/
namespace CommandShell

abbrev Bytes := List UInt8

namespace Text

def encode (s : String) : Bytes := s.toUTF8.data.toList

def decode? (bytes : Bytes) : Option String := String.fromUTF8? ⟨bytes.toArray⟩

def replacement : Char := '\ufffd'

/-- A character of which the first bytes have been read: how many are still to come, the bounds
of the next one, and the bits so far. -/
structure Unfinished where
  missing : Nat
  low : UInt8
  high : UInt8
  bits : Nat

def lead (b : UInt8) : Option Unfinished :=
  if 0xC2 ≤ b && b ≤ 0xDF then some ⟨0,0x80,0xBF,b.toNat % 0x20⟩
  else if b = 0xE0 then some ⟨1,0xA0,0xBF,0⟩
  else if b = 0xED then some ⟨1,0x80,0x9F,0xD⟩
  else if 0xE1 ≤ b && b ≤ 0xEF then some ⟨1,0x80,0xBF,b.toNat % 0x10⟩
  else if b = 0xF0 then some ⟨2,0x90,0xBF,0⟩
  else if 0xF1 ≤ b && b ≤ 0xF3 then some ⟨2,0x80,0xBF,b.toNat % 8⟩
  else if b = 0xF4 then some ⟨2,0x80,0x8F,4⟩
  else none

def begin (b : UInt8) : List Char × Option Unfinished :=
  if b < 0x80 then ([Char.ofNat b.toNat],none)
  else match lead b with
    | some u => ([],some u)
    | none => ([replacement],none)

/-- Reads the byte `b` after the bytes of `u`. A byte out of bounds ends the part that is given up
and is itself read anew. -/
def resume (u : Unfinished) (b : UInt8) : List Char × Option Unfinished :=
  if u.low ≤ b && b ≤ u.high then
    let bits := u.bits * 0x40 + b.toNat % 0x40
    match u.missing with
    | 0 => ([Char.ofNat bits],none)
    | n + 1 => ([],some ⟨n,0x80,0xBF,bits⟩)
  else
    let (out,next) := begin b
    (replacement :: out,next)

def decodeFrom : Option Unfinished → Bytes → List Char
  | none,[] => []
  | some _,[] => [replacement]
  | state,b :: rest =>
    let (out,next) := match state with
      | none => begin b
      | some u => resume u b
    out ++ decodeFrom next rest

def decode (bytes : Bytes) : String := String.ofList (decodeFrom none bytes)

end Text
end CommandShell
