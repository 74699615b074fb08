/-!
# ChipEight.Text.Hex

Numbers and bytes in base sixteen.

* `Hex.lower`, `Hex.upper`: the shortest digits of a natural number.
* `Hex.padded`: a number with zeros in front up to a least width. The sign of a negative number
  counts as one place, and a number that needs more places takes them.
* `Hex.bytes`: two digits for each byte.
-/

namespace ChipEight
namespace Hex

/-- The shortest digits of a number, with small letters. -/
def lower (n : Nat) : List Char := Nat.toDigits 16 n

/-- The shortest digits of a number, with capital letters. -/
def upper (n : Nat) : List Char := (lower n).map Char.toUpper

/-- Zeros in front of a text up to a width. -/
def fill (width : Nat) (s : List Char) : List Char :=
  List.replicate (width - s.length) '0' ++ s

/-- A number in at least `width` places, its sign included. -/
def padded (width : Nat) (n : Int) : List Char :=
  if n < 0 then '-' :: fill (width - 1) (lower n.natAbs) else fill width (lower n.natAbs)

/-- A sixteen-bit word in four places, with capital letters. -/
def word (w : UInt16) : List Char := fill 4 (upper w.toNat)

/-- One byte in two places. -/
def byte (b : UInt8) : List Char := fill 2 (lower b.toNat)

/-- Two places for each byte. -/
def bytes (bs : List UInt8) : List Char := bs.flatMap byte

/-- The text of a number in at least `width` places. -/
def text (width : Nat) (n : Int) : String := String.ofList (padded width n)

end Hex
end ChipEight
