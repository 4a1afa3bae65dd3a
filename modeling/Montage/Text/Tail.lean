/-!
# Ends of texts

The last characters of a text, counted from its end: `n` of them for a positive `n`. Zero keeps
the whole text, and a negative count drops as many characters from the front.
-/
namespace Montage.Text

/-- How many characters are dropped from the front of a text of the given length. -/
def tailStart (n : Int) (length : Nat) : Nat :=
  if 0 < n then length - n.toNat else if n = 0 then 0 else n.natAbs

/-- The end of a list that a count selects. -/
def tailOf (n : Int) (cs : List Char) : List Char := cs.drop (tailStart n cs.length)

/-- The end of a text that a count selects. -/
def tail (n : Int) (s : String) : String := String.ofList (tailOf n s.toList)

/-- A text with more put to its end, of which the end is kept. -/
def appendTail (n : Int) (s more : String) : String := tail n (s ++ more)

theorem tailOf_append_tailOf (n : Int) (hn : 0 < n) (a b : List Char) :
    tailOf n (tailOf n a ++ b) = tailOf n (a ++ b) := by
  simp only [tailOf, tailStart, hn, if_true, List.length_append, List.length_drop,
    List.drop_append, List.drop_drop]
  congr 1
  · congr 1; omega
  · congr 1; omega

theorem length_tailOf (n : Int) (hn : 0 < n) (cs : List Char) :
    (tailOf n cs).length = min n.toNat cs.length := by
  simp only [tailOf, tailStart, hn, if_true, List.length_drop]; omega

/-- Keeping the end after each of two pieces is keeping it once. -/
theorem appendTail_appendTail (n : Int) (hn : 0 < n) (s a b : String) :
    appendTail n (appendTail n s a) b = appendTail n s (a ++ b) := by
  simp [appendTail, tail, tailOf_append_tailOf n hn]

end Montage.Text
