import Memoize.Text.Ranges

/-!
# Blank characters

The characters that separate tokens and have no meaning of their own: the Unicode white space, and
the left-to-right and right-to-left marks.
-/

namespace Memoize.Text

namespace Blank

/-- The Unicode white space above ASCII and the two direction marks. -/
def above : List (Nat × Nat) :=
  [(0x85, 0x85), (0xA0, 0xA0), (0x1680, 0x1680), (0x2000, 0x200A), (0x200E, 0x200F),
   (0x2028, 0x2029), (0x202F, 0x202F), (0x205F, 0x205F), (0x3000, 0x3000)]

end Blank

/-- Whether `c` only separates tokens. -/
def isBlank (c : Char) : Bool :=
  c == ' ' || (9 ≤ c.toNat && c.toNat ≤ 13) || (128 ≤ c.toNat && inRanges Blank.above c.toNat)

/-- Every ASCII white space character is blank. -/
theorem isBlank_of_isWhitespace (c : Char) (h : c.isWhitespace = true) : isBlank c = true := by
  simp only [Char.isWhitespace, Bool.or_eq_true, decide_eq_true_eq] at h
  rcases h with ((h | h) | h) | h <;> subst h <;> decide

end Memoize.Text
