import Mathlib.Data.List.Chain
import Mathlib.Data.List.TakeWhile
import CommandShell.Proofs.Substitution.Cut

/-! Texts made of characters and substitutions.
Where every substitution is closed and no other dollar sign stands before an opening bracket, a
word is cut exactly at the substitutions and at the names after dollar signs. -/
namespace CommandShell
namespace Word

/-- A character, or a whole substitution with its brackets. -/
inductive Item
  | char (c : Char)
  | sub (b : Bracket) (inner : List Char)

namespace Item

def text : Item → List Char
  | char c => [c]
  | sub b inner => '$' :: b.opening :: (inner ++ [b.closing])

def part? : Item → Option Part
  | char _ => none
  | sub b inner => some (.ofBody b inner)

def continuesName : Item → Bool
  | char c => Word.continuesName c
  | sub _ _ => false

/-- The two do not look like the beginning of a substitution. -/
def Apart (x y : Item) : Prop := x = .char '$' → ∀ d, y = .char d → Bracket.ofChar? d = none

/-- All substitutions are closed, and nothing else looks like the beginning of one. -/
structure Fit (items : List Item) : Prop where
  closes : ∀ b inner, .sub b inner ∈ items → Body.Closes b inner
  apart : items.IsChain Apart

theorem Fit.part {items part : List Item} (h : Fit items) (hs : part <:+: items) : Fit part :=
  ⟨fun b inner hm => h.closes b inner (hs.subset hm), List.IsChain.infix h.apart hs⟩

def chars (text : String) : List Item := text.toList.map char

theorem chars_push (text : String) (c : Char) : chars (text.push c) = chars text ++ [.char c] := by
  simp [chars]

theorem Fit.no_opening {text : String} {rest : List Item} (h : Fit (chars text ++ rest))
    (b : Bracket) : ¬['$',b.opening] <:+: text.toList := by
  intro hi
  have hchain : [Item.char '$',.char b.opening].IsChain Apart :=
    List.IsChain.infix h.apart ((hi.map char).trans (List.infix_append' [] _ rest))
  have hnone := List.isChain_pair.1 hchain rfl _ rfl
  rw [Bracket.ofChar?_opening] at hnone
  cases hnone

theorem dropWhile_text (items : List Item) :
    (items.flatMap text).dropWhile Word.continuesName =
      (items.dropWhile continuesName).flatMap text := by
  induction items with
  | nil => rfl
  | cons x items ih =>
    cases x with
    | char c => by_cases h : Word.continuesName c = true <;> simp [text,continuesName,h,ih]
    | sub b inner =>
      have hd : Word.continuesName '$' = false := by decide
      simp [text,continuesName,hd]

theorem part?_dropWhile (items : List Item) :
    (items.dropWhile continuesName).filterMap part? = items.filterMap part? := by
  induction items with
  | nil => rfl
  | cons x items ih =>
    cases x with
    | char c =>
      have hc : (char c :: items).filterMap part? = items.filterMap part? := rfl
      by_cases h : Word.continuesName c = true <;> simp [continuesName,h,ih,hc]
    | sub b inner => simp [continuesName]

end Item

inductive Spelling
  | literal (text : String)
  /-- `$(line)` -/
  | command (line : String)
  /-- An expression between braces after a dollar sign. -/
  | braced (expression : String)
  /-- `$name` -/
  | named (name : String)

namespace Spelling

def part : Spelling → Part
  | literal text => .literal text
  | command line => .command line
  | braced expression => .parameter expression
  | named name => .parameter name

def text : Spelling → String
  | literal text => text
  | command line => "$(" ++ line ++ ")"
  | braced expression => "$\x7b" ++ expression ++ "\x7d"
  | named name => "$" ++ name

def bracketed? : Spelling → Option Part
  | literal _ | named _ => none
  | command line => some (.command line)
  | braced expression => some (.parameter expression)

def ofBody (b : Bracket) (inner : List Char) : Spelling :=
  match b with
  | .paren => command (String.ofList inner)
  | .brace => braced (String.ofList inner)

def IsIdentifier (name : String) : Prop :=
  (∃ c ∈ name.toList.head?, startsName c = true) ∧ ∀ c ∈ name.toList, continuesName c = true

/-- What may stand before the rest of a word: a literal that is neither empty nor followed by
another and holds no beginning of a substitution, or an identifier that is not followed by a
character that would continue it. -/
def Right (rest : List Spelling) : Spelling → Prop
  | literal s => s ≠ "" ∧ (∀ b : Bracket, ¬['$',b.opening] <:+: s.toList) ∧
      ∀ s', rest.head? ≠ some (literal s')
  | command _ | braced _ => True
  | named name => IsIdentifier name ∧
      ∀ c ∈ (rest.flatMap (·.text.toList)).head?, continuesName c = false

def AllRight : List Spelling → Prop
  | [] => True
  | x :: rest => x.Right rest ∧ AllRight rest

/-- The spellings of the parts of a text, of which some were gathered between brackets. -/
structure Spells (spellings : List Spelling) (text : List Char) (parts gathered : List Part) :
    Prop where
  parts : spellings.map part = parts
  text : spellings.flatMap (·.text.toList) = text
  gathered : spellings.filterMap bracketed? = gathered
  right : AllRight spellings

theorem spells_nil : Spells [] [] [] [] := ⟨rfl,rfl,rfl,trivial⟩

namespace Spells

variable {sp : List Spelling} {t : List Char} {parts gathered : List Part}

theorem cons (h : Spells sp t parts gathered) {x : Spelling} (hx : x.Right sp) :
    Spells (x :: sp) (x.text.toList ++ t) (x.part :: parts) (x.bracketed?.toList ++ gathered) := by
  refine ⟨?_,?_,?_,hx,h.right⟩
  · rw [List.map_cons,h.parts]
  · rw [List.flatMap_cons,h.text]
  · cases hb : x.bracketed? <;> simp [hb,h.gathered]

theorem withLiteral (h : Spells sp t parts gathered) {text : String}
    (hi : ∀ b : Bracket, ¬['$',b.opening] <:+: text.toList)
    (hh : ∀ s, sp.head? ≠ some (literal s)) :
    ∃ sp, Spells sp (text.toList ++ t) (Word.withLiteral text parts) gathered := by
  by_cases ht : text = ""
  · subst ht
    exact ⟨sp,by simpa [Word.withLiteral] using h⟩
  · rw [Word.withLiteral,if_neg ht]
    exact ⟨_,h.cons (x := literal text) ⟨ht,hi,hh⟩⟩

theorem body (h : Spells sp t parts gathered) (b : Bracket) (inner : List Char) :
    Spells (ofBody b inner :: sp) ((Item.sub b inner).text ++ t) (.ofBody b inner :: parts)
      (.ofBody b inner :: gathered) := by
  have htext : (Item.sub b inner).text = (ofBody b inner).text.toList := by
    cases b <;> simp [ofBody,Spelling.text,Item.text,Bracket.opening,Bracket.closing]
  rw [htext]
  cases b with
  | paren => exact h.cons (x := command (String.ofList inner)) trivial
  | brace => exact h.cons (x := braced (String.ofList inner)) trivial

theorem name (h : Spells sp t parts gathered) {n : String} (hn : IsIdentifier n)
    (ht : ∀ c ∈ t.head?, continuesName c = false) :
    Spells (named n :: sp) ('$' :: n.toList ++ t) (.parameter n :: parts) gathered := by
  have htext : (named n).text.toList = '$' :: n.toList := by simp [Spelling.text]
  have hcons := h.cons (x := named n) ⟨hn,h.text ▸ ht⟩
  rw [htext] at hcons
  exact hcons

end Spells

theorem isIdentifier_takeWhile {c : Char} (h : startsName c = true) (tail : List Char) :
    IsIdentifier (String.ofList ((c :: tail).takeWhile continuesName)) := by
  have hc : continuesName c = true := by
    simp only [startsName,continuesName,Char.isAlphanum,Bool.or_eq_true] at h ⊢
    tauto
  refine ⟨⟨c,by simp [hc],h⟩,fun d hd => ?_⟩
  rw [String.toList_ofList] at hd
  exact List.mem_takeWhile_imp hd

theorem head?_dropWhile {s : List Char} {c : Char}
    (h : c ∈ (s.dropWhile continuesName).head?) : continuesName c = false := by
  have hnot := List.head?_dropWhile_not continuesName s
  rw [Option.mem_def.1 h] at hnot
  simpa using hnot

/-- A text, with more items after it, is cut into parts that can be spelled as it was, and the
substitutions are the parts between brackets. -/
def Spellable (text : String) (items : List Item) : Prop :=
  ∃ sp, Spells sp (text.toList ++ items.flatMap Item.text) (cut text (items.flatMap Item.text))
    (items.filterMap Item.part?)

section Spellable

variable {text : String} {items : List Item}

theorem spellable_nil (h : Item.Fit (Item.chars text ++ [])) : Spellable text [] := by
  rw [Spellable,List.flatMap_nil,cut_nil,List.filterMap_nil]
  exact spells_nil.withLiteral h.no_opening (by simp)

theorem spellable_char {c : Char} (h : Spellable (text.push c) items)
    (hcut : cut text (c :: items.flatMap Item.text) =
      cut (text.push c) (items.flatMap Item.text)) : Spellable text (.char c :: items) := by
  obtain ⟨sp,hsp⟩ := h
  have hflat : (Item.char c :: items).flatMap Item.text = c :: items.flatMap Item.text := rfl
  have htext : text.toList ++ c :: items.flatMap Item.text =
      (text.push c).toList ++ items.flatMap Item.text := by simp
  rw [Spellable,hflat,hcut,htext]
  exact ⟨sp,hsp⟩

theorem spellable_sub {b : Bracket} {inner : List Char}
    (hf : Item.Fit (Item.chars text ++ .sub b inner :: items)) (h : Spellable "" items) :
    Spellable text (.sub b inner :: items) := by
  obtain ⟨sp,hsp⟩ := h
  have hclosed := body?_of_closes (hf.closes b inner (by simp)) (items.flatMap Item.text)
  have hflat : (Item.sub b inner :: items).flatMap Item.text =
      '$' :: b.opening :: (inner ++ b.closing :: items.flatMap Item.text) := by simp [Item.text]
  have hparts : (Item.sub b inner :: items).filterMap Item.part? =
      .ofBody b inner :: items.filterMap Item.part? := rfl
  have hhead : ∀ s, (ofBody b inner :: sp).head? ≠ some (literal s) := by
    cases b <;> simp [ofBody]
  have hbody := (hsp.body b inner).withLiteral hf.no_opening hhead
  rw [Spellable,hflat,cut_body text hclosed,hparts]
  simpa [Item.text] using hbody

theorem spellable_name {d : Char} (hf : Item.Fit (Item.chars text ++ .char '$' :: .char d :: items))
    (hd : Bracket.ofChar? d = none) (hs : startsName d = true)
    (h : Spellable "" ((Item.char d :: items).dropWhile Item.continuesName)) :
    Spellable text (.char '$' :: .char d :: items) := by
  obtain ⟨sp,hsp⟩ := h
  rw [← Item.dropWhile_text,Item.part?_dropWhile] at hsp
  have hname := (hsp.name (isIdentifier_takeWhile hs (items.flatMap Item.text))
    fun c hc => head?_dropWhile hc).withLiteral hf.no_opening (by simp)
  rw [String.toList_ofList] at hname
  have hflat : (Item.char '$' :: .char d :: items).flatMap Item.text =
      '$' :: d :: items.flatMap Item.text := rfl
  have htext : '$' :: d :: items.flatMap Item.text = '$' ::
      (d :: items.flatMap Item.text).takeWhile continuesName ++
        (d :: items.flatMap Item.text).dropWhile continuesName := by
    rw [List.cons_append,List.takeWhile_append_dropWhile]
  rw [Spellable,hflat,cut_name text hd hs,htext]
  exact hname

end Spellable

/-- A text of characters and closed substitutions can be spelled. -/
theorem spellable (items : List Item) (text : String) (h : Item.Fit (Item.chars text ++ items)) :
    Spellable text items := by
  induction hn : items.length using Nat.strong_induction_on generalizing items text with
  | _ n ih =>
  subst hn
  have hpush : ∀ c rest, items = .char c :: rest → Spellable (text.push c) rest := by
    rintro c rest rfl
    refine ih rest.length (by simp) rest _ ?_ rfl
    rw [Item.chars_push,List.append_assoc]
    exact h
  have hsuffix : ∀ rest, rest <:+ items → rest.length < items.length → Spellable "" rest :=
    fun rest hs hl => ih rest.length hl rest "" (h.part (hs.trans (List.suffix_append _ _)).isInfix)
      rfl
  match items with
  | [] => exact spellable_nil h
  | .sub b inner :: rest => exact spellable_sub h (hsuffix rest (List.suffix_cons _ _) (by simp))
  | .char c :: rest =>
    by_cases hc : c = '$'
    · subst hc
      have hp := hpush '$' rest rfl
      match rest with
      | [] => exact spellable_char hp ((cut_dollar_nil text).trans (cut_nil _).symm)
      | .sub b inner :: rest =>
        exact spellable_char hp (cut_dollar text (by decide) (by decide))
      | .char d :: rest =>
        have hd : Bracket.ofChar? d = none := by
          have hchain := h.apart.suffix (List.suffix_append _ _)
          exact (List.isChain_cons_cons.1 hchain).1 rfl d rfl
        by_cases hs : startsName d = true
        · refine spellable_name h hd hs (hsuffix _ ?_ ?_)
          · exact (List.dropWhile_suffix _).trans (List.suffix_cons _ _)
          · exact Nat.lt_succ_of_le (List.dropWhile_sublist _).length_le
        · exact spellable_char hp (cut_dollar text hd hs)
    · exact spellable_char (hpush c rest rfl) (cut_cons text _ hc)

end Spelling
end Word
end CommandShell
