import Bria.Go.Text

/-!
# Characters

A `range` loop over a string goes through its characters: the well-formed UTF-8 sequences, and every
other byte by itself, which counts as U+FFFD. A character is its bytes here, and `rune` its number.
The categories are those of `unicode`.
-/

namespace Bria.Go

/-- The characters of a string from inside one of which `skip` bytes are left. -/
def charsFrom : Nat → GoString → List GoString
  | _, [] => []
  | skip + 1, _ :: rest => charsFrom skip rest
  | 0, b :: rest =>
    (b :: rest.take (runeWidth (b :: rest) - 1)) :: charsFrom (runeWidth (b :: rest) - 1) rest

section

variable (s char : GoString)

/-- The characters of a string. -/
def chars : List GoString := charsFrom 0 s

/-- The number of a character. -/
def rune : Nat :=
  if runeWidth char = 0 then 0xFFFD
  else match char with
    | [a] => a.toNat
    | [a, b] => (a.toNat - 0xC0) * 0x40 + (b.toNat - 0x80)
    | [a, b, c] => (a.toNat - 0xE0) * 0x1000 + (b.toNat - 0x80) * 0x40 + (c.toNat - 0x80)
    | [a, b, c, d] =>
      (a.toNat - 0xF0) * 0x40000 + (b.toNat - 0x80) * 0x1000 + (c.toNat - 0x80) * 0x40 +
        (d.toNat - 0x80)
    | _ => 0xFFFD

/-- `utf8.RuneCountInString`. -/
def runeCount : Nat := (chars s).length

/-- `unicode.IsControl`. -/
def isControl : Bool := rune char < 0x20 || 0x7F ≤ rune char && rune char < 0xA0

/-- `unicode.IsSpace`. -/
def isSpace : Bool := spaces.contains char

/-- The ranges of `unicode.Cf`. -/
def formatRanges : List (Nat × Nat) :=
  [(0xAD, 0xAD), (0x600, 0x605), (0x61C, 0x61C), (0x6DD, 0x6DD), (0x70F, 0x70F), (0x890, 0x891),
    (0x8E2, 0x8E2), (0x180E, 0x180E), (0x200B, 0x200F), (0x202A, 0x202E), (0x2060, 0x2064),
    (0x2066, 0x206F), (0xFEFF, 0xFEFF), (0xFFF9, 0xFFFB), (0x110BD, 0x110BD), (0x110CD, 0x110CD),
    (0x13430, 0x1343F), (0x1BCA0, 0x1BCA3), (0x1D173, 0x1D17A), (0xE0001, 0xE0001),
    (0xE0020, 0xE007F)]

/-- `unicode.Is(unicode.Cf, r)`. -/
def isFormat : Bool := formatRanges.any fun range => range.1 ≤ rune char && rune char ≤ range.2

/-- `strings.Fields`: the parts between spaces. -/
def fields : List GoString :=
  (((chars s).splitOnP isSpace).filter fun word => !word.isEmpty).map List.flatten

end

/-- `strings.Join` of the words of a name. -/
def joinWords (words : List GoString) : GoString := ([0x20] : GoString).intercalate words

end Bria.Go
