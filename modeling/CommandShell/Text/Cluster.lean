import CommandShell.Text.Category

/-! What a reader sees as one character.
A text falls into clusters: a letter with the marks on it, the parts of a syllable, a pictograph
made of several, two letters that stand for a region. -/
namespace CommandShell
namespace Text

def wideExtenders : List (Nat × Nat) :=
  [(0x9be,0x9be),(0x9d7,0x9d7),(0xb3e,0xb3e),(0xb57,0xb57),(0xbbe,0xbbe),(0xbd7,0xbd7),
  (0xcc0,0xcc0),(0xcc2,0xcc2),(0xcc7,0xcc8),(0xcca,0xccb),(0xcd5,0xcd6),(0xd3e,0xd3e),
  (0xd57,0xd57),(0xdcf,0xdcf),(0xddf,0xddf),(0x1715,0x1715),(0x1734,0x1734),
  (0x1b35,0x1b35),(0x1b3b,0x1b3b),(0x1b3d,0x1b3d),(0x1b43,0x1b44),(0x1baa,0x1baa),
  (0x1bf2,0x1bf3),(0x200c,0x200c),(0x302e,0x302f),(0xa953,0xa953),(0xa9c0,0xa9c0),
  (0xff9e,0xff9f),(0x111c0,0x111c0),(0x11235,0x11235),(0x1133e,0x1133e),(0x1134d,0x1134d),
  (0x11357,0x11357),(0x113b8,0x113b8),(0x113c2,0x113c2),(0x113c5,0x113c5),
  (0x113c7,0x113c9),(0x113cf,0x113cf),(0x114b0,0x114b0),(0x114bd,0x114bd),
  (0x115af,0x115af),(0x116b6,0x116b6),(0x11930,0x11930),(0x1193d,0x1193d),
  (0x11f41,0x11f41),(0x16ff0,0x16ff1),(0x1d165,0x1d166),(0x1d16d,0x1d172),
  (0xe0020,0xe007f)]

def standAlone : List (Nat × Nat) :=
  [(0x102b,0x102c),(0x1038,0x1038),(0x1062,0x1064),(0x1067,0x106d),(0x1083,0x1083),
  (0x1087,0x108c),(0x108f,0x108f),(0x109a,0x109c),(0x1a61,0x1a61),(0x1a63,0x1a64),
  (0xaa7b,0xaa7b),(0xaa7d,0xaa7d),(0x11720,0x11721)]

def openers : List (Nat × Nat) :=
  [(0x600,0x605),(0x6dd,0x6dd),(0x70f,0x70f),(0x890,0x891),(0x8e2,0x8e2),(0xd4e,0xd4e),
  (0x110bd,0x110bd),(0x110cd,0x110cd),(0x111c2,0x111c3),(0x113d1,0x113d1),
  (0x1193f,0x1193f),(0x11941,0x11941),(0x11a84,0x11a89),(0x11d46,0x11d46),
  (0x11f02,0x11f02)]

def invisible : List (Nat × Nat) :=
  [(0x2065,0x2065),(0xfff0,0xfff8),(0xe0000,0xe0000),(0xe0002,0xe001f),(0xe0080,0xe00ff),
  (0xe01f0,0xe0fff)]

def pictographs : List (Nat × Nat) :=
  [(0xa9,0xa9),(0xae,0xae),(0x203c,0x203c),(0x2049,0x2049),(0x2122,0x2122),
  (0x2139,0x2139),(0x2194,0x2199),(0x21a9,0x21aa),(0x231a,0x231b),(0x2328,0x2328),
  (0x23cf,0x23cf),(0x23e9,0x23f3),(0x23f8,0x23fa),(0x24c2,0x24c2),(0x25aa,0x25ab),
  (0x25b6,0x25b6),(0x25c0,0x25c0),(0x25fb,0x25fe),(0x2600,0x2604),(0x260e,0x260e),
  (0x2611,0x2611),(0x2614,0x2615),(0x2618,0x2618),(0x261d,0x261d),(0x2620,0x2620),
  (0x2622,0x2623),(0x2626,0x2626),(0x262a,0x262a),(0x262e,0x262f),(0x2638,0x263a),
  (0x2640,0x2640),(0x2642,0x2642),(0x2648,0x2653),(0x265f,0x2660),(0x2663,0x2663),
  (0x2665,0x2666),(0x2668,0x2668),(0x267b,0x267b),(0x267e,0x267f),(0x2692,0x2697),
  (0x2699,0x2699),(0x269b,0x269c),(0x26a0,0x26a1),(0x26a7,0x26a7),(0x26aa,0x26ab),
  (0x26b0,0x26b1),(0x26bd,0x26be),(0x26c4,0x26c5),(0x26c8,0x26c8),(0x26ce,0x26cf),
  (0x26d1,0x26d1),(0x26d3,0x26d4),(0x26e9,0x26ea),(0x26f0,0x26f5),(0x26f7,0x26fa),
  (0x26fd,0x26fd),(0x2702,0x2702),(0x2705,0x2705),(0x2708,0x270d),(0x270f,0x270f),
  (0x2712,0x2712),(0x2714,0x2714),(0x2716,0x2716),(0x271d,0x271d),(0x2721,0x2721),
  (0x2728,0x2728),(0x2733,0x2734),(0x2744,0x2744),(0x2747,0x2747),(0x274c,0x274c),
  (0x274e,0x274e),(0x2753,0x2755),(0x2757,0x2757),(0x2763,0x2764),(0x2795,0x2797),
  (0x27a1,0x27a1),(0x27b0,0x27b0),(0x27bf,0x27bf),(0x2934,0x2935),(0x2b05,0x2b07),
  (0x2b1b,0x2b1c),(0x2b50,0x2b50),(0x2b55,0x2b55),(0x3030,0x3030),(0x303d,0x303d),
  (0x3297,0x3297),(0x3299,0x3299),(0x1f004,0x1f004),(0x1f02c,0x1f02f),(0x1f094,0x1f09f),
  (0x1f0af,0x1f0b0),(0x1f0c0,0x1f0c0),(0x1f0cf,0x1f0d0),(0x1f0f6,0x1f0ff),
  (0x1f170,0x1f171),(0x1f17e,0x1f17f),(0x1f18e,0x1f18e),(0x1f191,0x1f19a),
  (0x1f1ae,0x1f1e5),(0x1f201,0x1f20f),(0x1f21a,0x1f21a),(0x1f22f,0x1f22f),
  (0x1f232,0x1f23a),(0x1f23c,0x1f23f),(0x1f249,0x1f25f),(0x1f266,0x1f321),
  (0x1f324,0x1f393),(0x1f396,0x1f397),(0x1f399,0x1f39b),(0x1f39e,0x1f3f0),
  (0x1f3f3,0x1f3f5),(0x1f3f7,0x1f3fa),(0x1f400,0x1f4fd),(0x1f4ff,0x1f53d),
  (0x1f549,0x1f54e),(0x1f550,0x1f567),(0x1f56f,0x1f570),(0x1f573,0x1f57a),
  (0x1f587,0x1f587),(0x1f58a,0x1f58d),(0x1f590,0x1f590),(0x1f595,0x1f596),
  (0x1f5a4,0x1f5a5),(0x1f5a8,0x1f5a8),(0x1f5b1,0x1f5b2),(0x1f5bc,0x1f5bc),
  (0x1f5c2,0x1f5c4),(0x1f5d1,0x1f5d3),(0x1f5dc,0x1f5de),(0x1f5e1,0x1f5e1),
  (0x1f5e3,0x1f5e3),(0x1f5e8,0x1f5e8),(0x1f5ef,0x1f5ef),(0x1f5f3,0x1f5f3),
  (0x1f5fa,0x1f64f),(0x1f680,0x1f6c5),(0x1f6cb,0x1f6d2),(0x1f6d5,0x1f6e5),
  (0x1f6e9,0x1f6e9),(0x1f6eb,0x1f6f0),(0x1f6f3,0x1f6ff),(0x1f7da,0x1f7ff),
  (0x1f80c,0x1f80f),(0x1f848,0x1f84f),(0x1f85a,0x1f85f),(0x1f888,0x1f88f),
  (0x1f8ae,0x1f8af),(0x1f8bc,0x1f8bf),(0x1f8c2,0x1f8cf),(0x1f8d9,0x1f8ff),
  (0x1f90c,0x1f93a),(0x1f93c,0x1f945),(0x1f947,0x1f9ff),(0x1fa58,0x1fa5f),
  (0x1fa6e,0x1faff),(0x1fc00,0x1fffd)]

def linkers : List (Nat × Nat) :=
  [(0x94d,0x94d),(0x9cd,0x9cd),(0xacd,0xacd),(0xb4d,0xb4d),(0xc4d,0xc4d),(0xd4d,0xd4d),
  (0x1039,0x1039),(0x17d2,0x17d2),(0x1a60,0x1a60),(0x1b44,0x1b44),(0x1bab,0x1bab),
  (0xa9c0,0xa9c0),(0xaaf6,0xaaf6),(0x10a3f,0x10a3f),(0x11133,0x11133),(0x113d0,0x113d0),
  (0x1193e,0x1193e),(0x11a47,0x11a47),(0x11a99,0x11a99),(0x11f42,0x11f42)]

def linkable : List (Nat × Nat) :=
  [(0x915,0x939),(0x958,0x95f),(0x978,0x97f),(0x995,0x9a8),(0x9aa,0x9b0),(0x9b2,0x9b2),
  (0x9b6,0x9b9),(0x9dc,0x9dd),(0x9df,0x9df),(0x9f0,0x9f1),(0xa95,0xaa8),(0xaaa,0xab0),
  (0xab2,0xab3),(0xab5,0xab9),(0xaf9,0xaf9),(0xb15,0xb28),(0xb2a,0xb30),(0xb32,0xb33),
  (0xb35,0xb39),(0xb5c,0xb5d),(0xb5f,0xb5f),(0xb71,0xb71),(0xc15,0xc28),(0xc2a,0xc39),
  (0xc58,0xc5a),(0xd15,0xd3a),(0x1000,0x102a),(0x103f,0x103f),(0x1050,0x1055),
  (0x105a,0x105d),(0x1061,0x1061),(0x1065,0x1066),(0x106e,0x1070),(0x1075,0x1081),
  (0x108e,0x108e),(0x1780,0x17b3),(0x1a20,0x1a54),(0x1b0b,0x1b0c),(0x1b13,0x1b33),
  (0x1b45,0x1b4c),(0x1b83,0x1ba0),(0x1bae,0x1baf),(0x1bbb,0x1bbd),(0xa989,0xa98b),
  (0xa98f,0xa9b2),(0xa9e0,0xa9e4),(0xa9e7,0xa9ef),(0xa9fa,0xa9fe),(0xaa60,0xaa6f),
  (0xaa71,0xaa73),(0xaa7a,0xaa7a),(0xaa7e,0xaa7f),(0xaae0,0xaaea),(0xabc0,0xabda),
  (0x10a00,0x10a00),(0x10a10,0x10a13),(0x10a15,0x10a17),(0x10a19,0x10a35),
  (0x11103,0x11126),(0x11144,0x11144),(0x11147,0x11147),(0x11380,0x11389),
  (0x1138b,0x1138b),(0x1138e,0x1138e),(0x11390,0x113b5),(0x11900,0x11906),
  (0x11909,0x11909),(0x1190c,0x11913),(0x11915,0x11916),(0x11918,0x1192f),
  (0x11a00,0x11a00),(0x11a0b,0x11a32),(0x11a50,0x11a50),(0x11a5c,0x11a83),
  (0x11f04,0x11f10),(0x11f12,0x11f33)]

def isExtender (c : Char) : Bool :=
  let k := category c
  k = .mn || k = .me || within wideExtenders c

inductive Joining
  | carriageReturn
  | lineFeed
  | control
  | extender
  /-- Joins pictographs. -/
  | joiner
  | regional
  | opener
  /-- A mark that takes room. -/
  | spacing
  /-- The beginning, middle and end of a syllable, and syllables without and with an end. -/
  | lead
  | vowel
  | tail
  | openSyllable
  | closedSyllable
  | pictograph
  /-- A letter that a linker can join. -/
  | linked
  | other
  deriving DecidableEq

namespace Joining

def ofSyllable? (n : Nat) : Option Joining :=
  if (0x1100 ≤ n && n ≤ 0x115f) || (0xa960 ≤ n && n ≤ 0xa97c) then some lead
  else if (0x1160 ≤ n && n ≤ 0x11a7) || (0xd7b0 ≤ n && n ≤ 0xd7c6) || n = 0x16d63 ||
    (0x16d67 ≤ n && n ≤ 0x16d6a) then some vowel
  else if (0x11a8 ≤ n && n ≤ 0x11ff) || (0xd7cb ≤ n && n ≤ 0xd7fb) then some tail
  else if 0xac00 ≤ n && n ≤ 0xd7a3 then
    some (if (n - 0xac00) % 28 = 0 then openSyllable else closedSyllable)
  else none

def ofChar (c : Char) : Joining :=
  let n := c.toNat
  if 0x20 ≤ n && n < 0x7f then other
  else if c = '\r' then carriageReturn
  else if c = '\n' then lineFeed
  else if n = 0x200d then joiner
  else if 0x1f1e6 ≤ n && n ≤ 0x1f1ff then regional
  else if isExtender c || (0x1f3fb ≤ n && n ≤ 0x1f3ff) then extender
  else if within openers c then opener
  else match ofSyllable? n with
    | some j => j
    | none =>
      let k := category c
      if k = .cc || k = .cf || k = .zl || k = .zp || within invisible c then control
      else if (k = .mc && !within standAlone c) || n = 0xe33 || n = 0xeb3 then spacing
      else if within pictographs c then pictograph
      else if within linkable c then .linked
      else other

def isBreak : Joining → Bool
  | carriageReturn | lineFeed | control => true
  | _ => false

end Joining

/-- The text, given in reverse, ends in a letter with a linker among the marks on it. -/
def endsLinked (before : List Char) : Bool :=
  let isMark (c : Char) : Bool := c ≠ '\u200c' && (isExtender c || c = '\u200d')
  (before.takeWhile isMark).any (within linkers) &&
    ((before.dropWhile isMark).head?.any fun c => Joining.ofChar c = .linked)

/-- The text, given in reverse, ends in a pictograph with nothing but marks behind it. -/
def endsInPictograph (before : List Char) : Bool :=
  (before.dropWhile fun c => Joining.ofChar c = .extender).head?.any fun c =>
    Joining.ofChar c = .pictograph

/-- The character goes on with the cluster at the end of the text before it, given in reverse. -/
def joins : List Char → Char → Bool
  | [],_ => false
  | last :: before,c =>
    match Joining.ofChar last,Joining.ofChar c with
    | .carriageReturn,.lineFeed => true
    | .lead,.lead | .lead,.vowel | .lead,.openSyllable | .lead,.closedSyllable => true
    | .vowel,.vowel | .vowel,.tail | .openSyllable,.vowel | .openSyllable,.tail => true
    | .tail,.tail | .closedSyllable,.tail => true
    | j,k =>
      if j.isBreak || k.isBreak then false
      else match j,k with
        | _,.extender | _,.joiner | _,.spacing | .opener,_ => true
        | _,.linked => endsLinked (last :: before)
        | .joiner,.pictograph => endsInPictograph before
        | .regional,.regional =>
          ((last :: before).takeWhile fun c => Joining.ofChar c = .regional).length % 2 = 1
        | _,_ => false

/-- The clusters of `rest` behind the text `before`, given in reverse, of whose last cluster
`current` is the part that was not yet passed on, in reverse too. -/
def clustersFrom (before current : List Char) : List Char → List (List Char)
  | [] => if current = [] then [] else [current.reverse]
  | c :: rest =>
    if current = [] ∨ joins before c then clustersFrom (c :: before) (c :: current) rest
    else current.reverse :: clustersFrom (c :: before) [c] rest

def clusters (s : List Char) : List (List Char) := clustersFrom [] [] s

end Text
end CommandShell
