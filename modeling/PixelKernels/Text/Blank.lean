/-
  PixelKernels.Text.Blank
  ───────────────────────
  **WHITE SPACE, AND LETTERS WHOSE CASE IS IGNORED.**

  White space is the Unicode property of that name: twenty-five characters,
  of which six are ASCII.  Case is folded for the twenty-six ASCII letters
  only, so a letter from elsewhere never becomes an ASCII one.
-/
namespace PixelKernels.Text

/-- The white-space characters, as ranges of code points. -/
def blankRanges : List (Nat × Nat) :=
  [(0x09, 0x0D), (0x20, 0x20), (0x85, 0x85), (0xA0, 0xA0), (0x1680, 0x1680),
    (0x2000, 0x200A), (0x2028, 0x2029), (0x202F, 0x202F), (0x205F, 0x205F), (0x3000, 0x3000)]

/-- Whether a character is white space. -/
def isBlank (c : Char) : Bool :=
  blankRanges.any fun (low, high) => low ≤ c.toNat && c.toNat ≤ high

/-- The characters between the white space at both ends. -/
def trimChars (chars : List Char) : List Char :=
  ((chars.dropWhile isBlank).reverse.dropWhile isBlank).reverse

/-- The text between the white space at both ends. -/
def trim (text : String) : String := String.ofList (trimChars text.toList)

/-- An ASCII capital as its small letter; any other character as it is. -/
def foldChar (c : Char) : Char :=
  if 'A' ≤ c ∧ c ≤ 'Z' then Char.ofNat (c.toNat + 32) else c

/-- The text with its ASCII capitals made small. -/
def foldCase (text : String) : String := String.ofList (text.toList.map foldChar)

/-- Every character that core calls white space is. -/
theorem isBlank_of_isWhitespace {c : Char} (h : c.isWhitespace = true) : isBlank c = true := by
  simp only [Char.isWhitespace, Bool.or_eq_true, decide_eq_true_eq] at h
  rcases h with ((rfl | rfl) | rfl) | rfl <;> decide

end PixelKernels.Text
