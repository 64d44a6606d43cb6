import CommandShell.Pattern.CharSet

/-! Sets of characters that have a name.
The texts that patterns are matched against are of ASCII. The sets of properties are given as far as
they lie within ASCII or hold one of the two other letters that differ from a letter of ASCII in
case only. The general categories are complete. -/
namespace CommandShell
namespace CharSet

def ofClassName? : String → Option CharSet
  | "alnum" => some (union Ascii.letter Ascii.digit)
  | "alpha" => some Ascii.letter
  | "ascii" => some (range '\x00' '\x7f')
  | "blank" => some (ofChars ['\t',' '])
  | "cntrl" => some (ofRanges [('\x00','\x1f'),('\x7f','\x7f')])
  | "digit" => some Ascii.digit
  | "graph" => some (range '!' '~')
  | "lower" => some Ascii.lower
  | "print" => some (range ' ' '~')
  | "punct" => some (ofRanges [('!','/'),(':','@'),('[','\x60'),('\x7b','~')])
  | "space" => some Ascii.space
  | "upper" => some Ascii.upper
  | "word" => some Ascii.word
  | "xdigit" => some Ascii.hexDigit
  | _ => none

/-- Names are compared without regard to case, blanks, dashes, underscores and an `is` in front. The
name `isc` alone keeps it. -/
def plainName (name : String) : String :=
  let isPlain (c : Char) : Bool := c ≠ ' ' && c ≠ '-' && c ≠ '_' && c.toNat < 0x80
  let plain (s : List Char) : List Char := (s.filter isPlain).map Char.toLower
  match name.toList with
  | a :: b :: rest =>
    if a.toLower = 'i' ∧ b.toLower = 's' then
      String.ofList (if plain rest = ['c'] then ['i','s','c'] else plain rest)
    else String.ofList (plain (a :: b :: rest))
  | s => String.ofList (plain s)

open Text.Category in
def ofCategory? : String → Option CharSet
  | "any" => some all
  | "assigned" => some (compl (ofCategories [cn]))
  | "ascii" => some (range '\x00' '\x7f')
  | "l" | "letter" => some (ofCategories [lu,ll,lt,lm,lo])
  | "lc" | "casedletter" => some (ofCategories [lu,ll,lt])
  | "lu" | "uppercaseletter" => some (ofCategories [lu])
  | "ll" | "lowercaseletter" => some (ofCategories [ll])
  | "lt" | "titlecaseletter" => some (ofCategories [lt])
  | "lm" | "modifierletter" => some (ofCategories [lm])
  | "lo" | "otherletter" => some (ofCategories [lo])
  | "m" | "mark" | "combiningmark" => some (ofCategories [mn,mc,me])
  | "mn" | "nonspacingmark" => some (ofCategories [mn])
  | "mc" | "spacingmark" => some (ofCategories [mc])
  | "me" | "enclosingmark" => some (ofCategories [me])
  | "n" | "number" => some (ofCategories [nd,nl,no])
  | "nd" | "decimalnumber" | "digit" => some digit
  | "nl" | "letternumber" => some (ofCategories [nl])
  | "no" | "othernumber" => some (ofCategories [no])
  | "p" | "punctuation" | "punct" => some (ofCategories [pc,pd,ps,pe,pi,pf,po])
  | "pc" | "connectorpunctuation" => some (ofCategories [pc])
  | "pd" | "dashpunctuation" => some (ofCategories [pd])
  | "ps" | "openpunctuation" => some (ofCategories [ps])
  | "pe" | "closepunctuation" => some (ofCategories [pe])
  | "pi" | "initialpunctuation" => some (ofCategories [pi])
  | "pf" | "finalpunctuation" => some (ofCategories [pf])
  | "po" | "otherpunctuation" => some (ofCategories [po])
  | "s" | "symbol" => some (ofCategories [sm,sc,sk,so])
  | "sm" | "mathsymbol" => some (ofCategories [sm])
  | "sc" | "currencysymbol" => some (ofCategories [sc])
  | "sk" | "modifiersymbol" => some (ofCategories [sk])
  | "so" | "othersymbol" => some (ofCategories [so])
  | "z" | "separator" => some (ofCategories [zs,zl,zp])
  | "zs" | "spaceseparator" => some (ofCategories [zs])
  | "zl" | "lineseparator" => some (ofCategories [zl])
  | "zp" | "paragraphseparator" => some (ofCategories [zp])
  | "c" | "other" => some (ofCategories [cc,cf,co,cn])
  | "cc" | "control" | "cntrl" => some (ofCategories [cc])
  | "cf" | "format" => some (ofCategories [cf])
  | "co" | "privateuse" => some (ofCategories [co])
  | "cn" | "unassigned" => some (ofCategories [cn])
  | _ => none

def letters : CharSet := union Ascii.letter (ofChars ['\u017f','\u212a'])

def capitals : CharSet := union Ascii.upper (one '\u212a')

def smallLetters : CharSet := union Ascii.lower (one '\u017f')

def ofQuality? : String → Option CharSet
  | "alpha" | "alphabetic" | "cased" | "cwcm" | "changeswhencasemapped" | "ids" | "idstart" |
    "xids" | "xidstart" => some letters
  | "idc" | "idcontinue" | "xidc" | "xidcontinue" =>
    some (union letters (union Ascii.digit (one '_')))
  | "lower" | "lowercase" | "cwt" | "changeswhentitlecased" | "cwu" | "changeswhenuppercased" =>
    some smallLetters
  | "upper" | "uppercase" | "cwl" | "changeswhenlowercased" => some capitals
  | "cwcf" | "changeswhencasefolded" => some (union capitals (one '\u017f'))
  | "ahex" | "asciihexdigit" | "hex" | "hexdigit" => some Ascii.hexDigit
  | "bidim" | "bidimirrored" => some (ofChars ['(',')','<','>','[',']','\x7b','\x7d'])
  | "ci" | "caseignorable" => some (ofChars ['\'','.',':','^','\x60'])
  | "dash" | "hyphen" => some (one '-')
  | "dia" | "diacritic" => some (ofChars ['^','\x60'])
  | "emoji" | "ecomp" | "emojicomponent" => some (union Ascii.digit (ofChars ['#','*']))
  | "grbase" | "graphemebase" => some (union (range ' ' '~') letters)
  | "math" => some (ofChars ['+','<','=','>','^','|','~'])
  | "omath" | "othermath" => some (one '^')
  | "patsyn" | "patternsyntax" =>
    some (ofRanges [('!','/'),(':','@'),('[','^'),('\x60','\x60'),('\x7b','~')])
  | "patws" | "patternwhitespace" => some Ascii.space
  | "wspace" | "whitespace" | "space" => some space
  | "qmark" | "quotationmark" => some (ofChars ['"','\''])
  | "sterm" | "sentenceterminal" => some (ofChars ['!','.','?'])
  | "sd" | "softdotted" => some (ofChars ['i','j'])
  | "term" | "terminalpunctuation" => some (ofChars ['!',',','.',':',';','?'])
  | "bidic" | "bidicontrol" | "dep" | "deprecated" | "di" | "defaultignorablecodepoint" |
    "ebase" | "emojimodifierbase" | "emod" | "emojimodifier" | "epres" | "emojipresentation" |
    "ext" | "extender" | "extpict" | "extendedpictographic" | "grext" | "graphemeextend" |
    "grlink" | "graphemelink" | "idcompatmathcontinue" | "idcompatmathstart" |
    "ideo" | "ideographic" | "idsb" | "idsbinaryoperator" | "idst" | "idstrinaryoperator" |
    "idsu" | "idsunaryoperator" | "joinc" | "joincontrol" | "loe" | "logicalorderexception" |
    "mcm" | "modifiercombiningmark" | "nchar" | "noncharactercodepoint" |
    "oalpha" | "otheralphabetic" | "odi" | "otherdefaultignorablecodepoint" |
    "ogrext" | "othergraphemeextend" | "oidc" | "otheridcontinue" | "oids" | "otheridstart" |
    "olower" | "otherlowercase" | "oupper" | "otheruppercase" |
    "pcm" | "prependedconcatenationmark" | "radical" | "ri" | "regionalindicator" |
    "uideo" | "unifiedideograph" | "vs" | "variationselector" => some empty
  | _ => none

/-- The scripts that have no letter within ASCII. -/
def otherScripts : List String :=
  ["adlam","adlm","ahom","anatolianhieroglyphs","hluw","arabic","arab","armenian","armn",
  "avestan","avst","balinese","bali","bamum","bamu","bassavah","bass","batak","batk",
  "bengali","beng","beriaerfe","berf","bhaiksuki","bhks","bopomofo","bopo","brahmi","brah",
  "braille","brai","buginese","bugi","buhid","buhd","canadianaboriginal","cans","carian",
  "cari","caucasianalbanian","aghb","chakma","cakm","cham","cherokee","cher","chorasmian",
  "chrs","coptic","copt","qaac","cuneiform","xsux","cypriot","cprt","cyprominoan","cpmn",
  "cyrillic","cyrl","deseret","dsrt","devanagari","deva","divesakuru","diak","dogra",
  "dogr","duployan","dupl","egyptianhieroglyphs","egyp","elbasan","elba","elymaic","elym",
  "ethiopic","ethi","garay","gara","georgian","geor","glagolitic","glag","gothic","goth",
  "grantha","gran","greek","grek","gujarati","gujr","gunjalagondi","gong","gurmukhi",
  "guru","gurungkhema","gukh","han","hani","hangul","hang","hanifirohingya","rohg",
  "hanunoo","hano","hatran","hatr","hebrew","hebr","hiragana","hira","imperialaramaic",
  "armi","inherited","zinh","qaai","inscriptionalpahlavi","phli","inscriptionalparthian",
  "prti","javanese","java","kaithi","kthi","kannada","knda","katakana","kana","kawi",
  "kayahli","kali","kharoshthi","khar","khitansmallscript","kits","khmer","khmr","khojki",
  "khoj","khudawadi","sind","kiratrai","krai","lao","laoo","lepcha","lepc","limbu","limb",
  "lineara","lina","linearb","linb","lisu","lycian","lyci","lydian","lydi","mahajani",
  "mahj","makasar","maka","malayalam","mlym","mandaic","mand","manichaean","mani",
  "marchen","marc","masaramgondi","gonm","medefaidrin","medf","meeteimayek","mtei",
  "mendekikakui","mend","meroiticcursive","merc","meroitichieroglyphs","mero","miao","plrd",
  "modi","mongolian","mong","mro","mroo","multani","mult","myanmar","mymr","nabataean",
  "nbat","nagmundari","nagm","nandinagari","nand","newtailue","talu","newa","nko","nkoo",
  "nushu","nshu","nyiakengpuachuehmong","hmnp","ogham","ogam","olchiki","olck","olonal",
  "onao","oldhungarian","hung","olditalic","ital","oldnortharabian","narb","oldpermic",
  "perm","oldpersian","xpeo","oldsogdian","sogo","oldsoutharabian","sarb","oldturkic",
  "orkh","olduyghur","ougr","oriya","orya","osage","osge","osmanya","osma","pahawhhmong",
  "hmng","palmyrene","palm","paucinhau","pauc","phagspa","phag","phoenician","phnx",
  "psalterpahlavi","phlp","rejang","rjng","runic","runr","samaritan","samr","saurashtra",
  "saur","sharada","shrd","shavian","shaw","siddham","sidd","sidetic","sidt","signwriting",
  "sgnw","sinhala","sinh","sogdian","sogd","sorasompeng","sora","soyombo","soyo",
  "sundanese","sund","sunuwar","sunu","sylotinagri","sylo","syriac","syrc","tagalog",
  "tglg","tagbanwa","tagb","taile","tale","taitham","lana","taiviet","tavt","taiyo",
  "tayo","takri","takr","tamil","taml","tangsa","tnsa","tangut","tang","telugu","telu",
  "thaana","thaa","thai","tibetan","tibt","tifinagh","tfng","tirhuta","tirh","todhri",
  "todr","tolongsiki","tols","toto","tulutigalari","tutg","ugaritic","ugar","vai","vaii",
  "vithkuqi","vith","wancho","wcho","warangciti","wara","yezidi","yezi","yi","yiii",
  "zanabazarsquare","zanb"]

def ofScript? (name : String) : Option CharSet :=
  if name = "latin" ∨ name = "latn" then some letters
  else if name = "common" ∨ name = "zyyy" then some (diff (range '\x00' '\x7f') letters)
  else if otherScripts.contains name then some empty
  else none

/-- The versions of Unicode. All of ASCII was there from the first one on. -/
def ages : List String :=
  ["1.1","v11","2.0","v20","2.1","v21","3.0","v30","3.1","v31","3.2","v32","4.0","v40",
  "4.1","v41","5.0","v50","5.1","v51","5.2","v52","6.0","v60","6.1","v61","6.2","v62",
  "6.3","v63","7.0","v70","8.0","v80","9.0","v90","10.0","v100","11.0","v110","12.0",
  "v120","12.1","v121","13.0","v130","14.0","v140","15.0","v150","15.1","v151","16.0",
  "v160","17.0","v170"]

def ofClusterBreak? : String → Option CharSet
  | "cr" => some (one '\r')
  | "lf" => some (one '\n')
  | "cn" | "control" =>
    some (diff (ofRanges [('\x00','\x1f'),('\x7f','\x7f')]) (ofChars ['\r','\n']))
  | "ex" | "extend" | "l" | "lv" | "lvt" | "pp" | "prepend" | "ri" | "regionalindicator" | "sm" |
    "spacingmark" | "t" | "v" | "zwj" => some empty
  | _ => none

def ofWordBreak? : String → Option CharSet
  | "le" | "aletter" => some letters
  | "cr" => some (one '\r')
  | "lf" => some (one '\n')
  | "nl" | "newline" => some (ofChars ['\x0b','\x0c'])
  | "dq" | "doublequote" => some (one '"')
  | "sq" | "singlequote" => some (one '\'')
  | "ex" | "extendnumlet" => some (one '_')
  | "ml" | "midletter" => some (one ':')
  | "mn" | "midnum" => some (ofChars [',',';'])
  | "mb" | "midnumlet" => some (one '.')
  | "nu" | "numeric" => some Ascii.digit
  | "wsegspace" => some (one ' ')
  | "extend" | "fo" | "format" | "hl" | "hebrewletter" | "ka" | "katakana" | "ri" |
    "regionalindicator" | "zwj" => some empty
  | _ => none

def ofSentenceBreak? : String → Option CharSet
  | "at" | "aterm" => some (one '.')
  | "cl" | "close" => some (ofChars ['"','\'','(',')','[',']','\x7b','\x7d'])
  | "cr" => some (one '\r')
  | "lf" => some (one '\n')
  | "lo" | "lower" => some smallLetters
  | "up" | "upper" => some capitals
  | "nu" | "numeric" => some Ascii.digit
  | "sc" | "scontinue" => some (ofChars [',','-',':',';'])
  | "st" | "sterm" => some (ofChars ['!','?'])
  | "sp" => some (ofChars ['\t','\x0b','\x0c',' '])
  | "ex" | "extend" | "fo" | "format" | "le" | "oletter" | "se" | "sep" => some empty
  | _ => none

def otherProperties : List String :=
  ["kaccountingnumeric","cjkaccountingnumeric","kothernumeric","cjkothernumeric",
  "kprimarynumeric","cjkprimarynumeric","nv","numericvalue","cf","casefolding",
  "kcompatibilityvariant","cjkcompatibilityvariant","dm","decompositionmapping","fcnfkc",
  "fcnfkcclosure","lc","lowercasemapping","nfkccf","nfkccasefold","nfkcscf",
  "nfkcsimplecasefold","scf","simplecasefolding","sfc","slc","simplelowercasemapping","stc",
  "simpletitlecasemapping","suc","simpleuppercasemapping","tc","titlecasemapping","uc",
  "uppercasemapping","bmg","bidimirroringglyph","bpb","bidipairedbracket","kiicore",
  "cjkiicore","equideo","equivalentunifiedideograph","isc","jsn","jamoshortname","na","name",
  "na1","unicode1name","namealias","blk","block","bc","bidiclass","bpt",
  "bidipairedbrackettype","ccc","canonicalcombiningclass","dt","decompositiontype","ea",
  "eastasianwidth","hst","hangulsyllabletype","incb","indicconjunctbreak","inpc",
  "indicpositionalcategory","insc","indicsyllabiccategory","jg","joininggroup","jt",
  "joiningtype","lb","linebreak","nfcqc","nfcquickcheck","nfdqc","nfdquickcheck","nfkcqc",
  "nfkcquickcheck","nfkdqc","nfkdquickcheck","nt","numerictype","vo","verticalorientation",
  "ce","compositionexclusion","compex","fullcompositionexclusion","cwkcf",
  "changeswhennfkccasefolded","xonfc","expandsonnfc","xonfd","expandsonnfd","xonfkc",
  "expandsonnfkc","xonfkd","expandsonnfkd","krsunicode","cjkrsunicode","unicoderadicalstroke",
  "urs","kirggsource","cjkirggsource","kirghsource","cjkirghsource","kirgjsource",
  "cjkirgjsource","kirgksource","cjkirgksource","kirgkpsource","cjkirgkpsource","kirgmsource",
  "cjkirgmsource","kirgssource","cjkirgssource","kirgtsource","cjkirgtsource","kirgusource",
  "cjkirgusource","kirgvsource","cjkirgvsource","kirguksource","cjkirguksource"]

inductive Unknown
  | property
  | value
  deriving DecidableEq

def named (name : String) : Except Unknown CharSet :=
  let name := plainName name
  match (ofQuality? name).or ((ofCategory? name).or (ofScript? name)) with
  | some s => .ok s
  | none =>
    if name = "cs" ∨ name = "surrogate" ∨ name = "zzzz" ∨ name = "unknown" ∨ name = "hrkt" ∨
      name = "katakanaorhiragana" then .error .value
    else .error .property

def valued (name value : String) : Except Unknown CharSet :=
  let value := plainName value
  let found (s : Option CharSet) : Except Unknown CharSet :=
    match s with
    | some s => .ok s
    | none => .error .value
  match plainName name with
  | "gc" | "generalcategory" => found (ofCategory? value)
  | "sc" | "script" | "scx" | "scriptextensions" => found (ofScript? value)
  | "age" => found (if ages.contains value then some all else none)
  | "gcb" | "graphemeclusterbreak" => found (ofClusterBreak? value)
  | "wb" | "wordbreak" => found (ofWordBreak? value)
  | "sb" | "sentencebreak" => found (ofSentenceBreak? value)
  | name =>
    if (ofQuality? name).isSome || otherProperties.contains name then .error .value
    else .error .property

end CharSet
end CommandShell
