/-!
# UTF-8

Bytes as text. Where the bytes are not well formed, each longest stretch that begins a
character and does not end it counts as one defect, and so does each byte that begins none. A
strict reader refuses a text with defects, a lenient one writes `U+FFFD` for each.
-/
namespace Montage.Text

/-- What a first byte announces: how many bytes follow it, the payload of the byte itself, and
the bounds of the second byte. -/
def leadOf (b : Nat) : Option (Nat × Nat × Nat × Nat) :=
  if b < 0x80 then some (0, b, 0, 0)
  else if 0xc2 ≤ b && b ≤ 0xdf then some (1, b - 0xc0, 0x80, 0xbf)
  else if b = 0xe0 then some (2, 0, 0xa0, 0xbf)
  else if b = 0xed then some (2, 0xd, 0x80, 0x9f)
  else if 0xe1 ≤ b && b ≤ 0xef then some (2, b - 0xe0, 0x80, 0xbf)
  else if b = 0xf0 then some (3, 0, 0x90, 0xbf)
  else if 0xf1 ≤ b && b ≤ 0xf3 then some (3, b - 0xf0, 0x80, 0xbf)
  else if b = 0xf4 then some (3, 4, 0x80, 0x8f)
  else none

/-- Reads `more` further bytes of a character, the next one within the bounds. Gives the
character, if it is complete, and the number of bytes read. -/
def finishChar : (more value low high : Nat) → List UInt8 → Option Char × Nat
  | 0, value, _, _, _ => (some (Char.ofNat value), 0)
  | _ + 1, _, _, _, [] => (none, 0)
  | more + 1, value, low, high, b :: rest =>
    if low ≤ b.toNat && b.toNat ≤ high then
      let (c, n) := finishChar more (value * 64 + b.toNat % 64) 0x80 0xbf rest
      (c, n + 1)
    else (none, 0)

/-- The characters of a byte string, `none` for each defect. -/
def decode (bytes : List UInt8) : List (Option Char) :=
  match bytes with
  | [] => []
  | b :: rest =>
    match leadOf b.toNat with
    | none => none :: decode rest
    | some (more, value, low, high) =>
      let (c, n) := finishChar more value low high rest
      c :: decode (rest.drop n)
termination_by bytes.length
decreasing_by all_goals simp; try omega

/-- The text with `U+FFFD` for each defect. -/
def decodeLenient (bytes : List UInt8) : String :=
  String.ofList ((decode bytes).map fun c => c.getD (Char.ofNat 0xfffd))

/-- The text, unless there are defects. -/
def decodeStrict? (bytes : List UInt8) : Option String :=
  ((decode bytes).mapM id).map String.ofList

/-- The bytes of a text. -/
def encode (s : String) : List UInt8 := s.toUTF8.toList

end Montage.Text
