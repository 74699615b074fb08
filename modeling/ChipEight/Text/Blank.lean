/-!
# ChipEight.Text.Blank

Blank characters that may surround a number: the six blank controls and spaces of ASCII, and every
other character with the white-space property. The four information separators below the plain
space are not blank here.

* `Blank.isBlank`: whether a character is blank.
* `Blank.trim`: a text without the blanks at its ends.
-/

namespace ChipEight
namespace Blank

/-- Ranges of blank characters, first and last of each, in ascending order. -/
def ranges : List (Nat × Nat) := [
  (0x9, 0xD), (0x20, 0x20), (0x85, 0x85), (0xA0, 0xA0), (0x1680, 0x1680), (0x2000, 0x200A),
  (0x2028, 0x2029), (0x202F, 0x202F), (0x205F, 0x205F), (0x3000, 0x3000)]

/-- Whether a character is blank. -/
def isBlank (c : Char) : Bool :=
  ranges.any fun (first, last) => first ≤ c.toNat && c.toNat ≤ last

/-- A text without the blanks at its two ends. -/
def trim (s : List Char) : List Char :=
  ((s.dropWhile isBlank).reverse.dropWhile isBlank).reverse

end Blank
end ChipEight
