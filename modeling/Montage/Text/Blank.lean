import Montage.Text.Ranges

/-!
# Blank characters

Two sets of blanks are in use. Texts are cut and searched with the wide one, which counts the
four separators of ASCII (file, group, record, unit) among the blanks; a number is freed of the
blanks around it by the narrow one, the property White_Space.
-/
namespace Montage.Text

/-- The property White_Space of Unicode. -/
def whiteSpace : List (Nat × Nat) := [
  (0x9, 0xd), (0x20, 0x20), (0x85, 0x85), (0xa0, 0xa0), (0x1680, 0x1680), (0x2000, 0x200a),
  (0x2028, 0x2029), (0x202f, 0x202f), (0x205f, 0x205f), (0x3000, 0x3000)]

/-- White space in the narrow sense. -/
def isWhite (c : Char) : Bool := inRanges whiteSpace c.toNat

/-- White space and the four separators of ASCII. -/
def isBlank (c : Char) : Bool := isWhite c || inRanges [(0x1c, 0x1f)] c.toNat

theorem isBlank_of_isWhite {c : Char} (h : isWhite c = true) : isBlank c = true := by
  simp [isBlank, h]

theorem isWhite_of_isWhitespace {c : Char} (h : c.isWhitespace = true) : isWhite c = true := by
  simp only [Char.isWhitespace, Bool.or_eq_true, decide_eq_true_eq] at h
  rcases h with ((rfl | rfl) | rfl) | rfl <;> decide

/-- Drops from both ends of a text the characters that satisfy `p`. -/
def trimBoth (p : Char → Bool) (cs : List Char) : List Char :=
  ((cs.dropWhile p).reverse.dropWhile p).reverse

/-- The text without the blanks around it. -/
def strip (s : String) : String := String.ofList (trimBoth isBlank s.toList)

end Montage.Text
