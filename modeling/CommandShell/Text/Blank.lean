/-! White space in the sense of Unicode, and texts trimmed of it. -/
namespace CommandShell
namespace Text

def isBlank (c : Char) : Bool :=
  let n := c.toNat
  (9 ≤ n && n ≤ 13) || n = 0x20 || n = 0x85 || n = 0xA0 || n = 0x1680 ||
    (0x2000 ≤ n && n ≤ 0x200A) || n = 0x2028 || n = 0x2029 || n = 0x202F || n = 0x205F ||
    n = 0x3000

theorem code_of_isAlphanum {c : Char} (h : c.isAlphanum = true) :
    65 ≤ c.toNat ∧ c.toNat ≤ 90 ∨ 97 ≤ c.toNat ∧ c.toNat ≤ 122 ∨
      48 ≤ c.toNat ∧ c.toNat ≤ 57 := by
  rcases (Bool.or_eq_true _ _).mp h with h | h
  · rcases (Bool.or_eq_true _ _).mp h with h | h
    · exact .inl (of_decide_eq_true h)
    · obtain ⟨h₁,h₂⟩ := (Bool.and_eq_true _ _).mp h
      exact .inr (.inl ⟨of_decide_eq_true h₁,of_decide_eq_true h₂⟩)
  · obtain ⟨h₁,h₂⟩ := (Bool.and_eq_true _ _).mp h
    exact .inr (.inr ⟨of_decide_eq_true h₁,of_decide_eq_true h₂⟩)

theorem isBlank_eq_false_of_isAlphanum {c : Char} (h : c.isAlphanum = true) :
    isBlank c = false := by
  have hcode := code_of_isAlphanum h
  simp only [isBlank]
  simp
  omega

def trimEnd (s : List Char) : List Char := (s.reverse.dropWhile isBlank).reverse

def trim (s : List Char) : List Char := trimEnd (s.dropWhile isBlank)

def trimmedEnd (s : String) : String := String.ofList (trimEnd s.toList)

def trimmed (s : String) : String := String.ofList (trim s.toList)

end Text
end CommandShell
