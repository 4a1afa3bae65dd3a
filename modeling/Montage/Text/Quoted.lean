import Montage.Text.Printable

/-!
# Quoted text

A text in quotes, as messages show it: single quotes, unless the text holds a single quote and
no double one. The quote in use and the backslash are escaped, and so is every character that
cannot be printed, by the shortest of `\xNN`, `\uNNNN` and `\UNNNNNNNN`.
-/
namespace Montage.Text

/-- A number in lower-case hexadecimal, at least `n` digits long. -/
def hex (n k : Nat) : List Char :=
  let ds := Nat.toDigits 16 k
  List.replicate (n - ds.length) '0' ++ ds

/-- A character by its number. -/
def escapeNumber (c : Char) : List Char :=
  let n := c.toNat
  if n ≤ 0xff then '\\' :: 'x' :: hex 2 n
  else if n ≤ 0xffff then '\\' :: 'u' :: hex 4 n
  else '\\' :: 'U' :: hex 8 n

/-- A character inside quotes of the kind `q`. -/
def escapeChar (q c : Char) : List Char :=
  if c = q ∨ c = '\\' then ['\\', c]
  else if c = '\n' then ['\\', 'n']
  else if c = '\r' then ['\\', 'r']
  else if c = '\t' then ['\\', 't']
  else if isPrintable c then [c]
  else escapeNumber c

/-- The quote that a text is put in. -/
def quoteFor (cs : List Char) : Char :=
  if cs.contains '\'' && !cs.contains '"' then '"' else '\''

/-- The text in quotes. -/
def quote (s : String) : String :=
  let q := quoteFor s.toList
  String.ofList (q :: s.toList.flatMap (escapeChar q) ++ [q])

end Montage.Text
