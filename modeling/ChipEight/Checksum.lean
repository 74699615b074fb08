/-!
# ChipEight.Checksum

The Adler-32 checksum of a row of bytes: two sums modulo the prime 65521, the second of which adds
up the values that the first takes.
-/

namespace ChipEight
namespace Checksum

/-- The modulus of both sums. -/
def modulus : Nat := 65521

/-- The two sums after one more byte. -/
def add (sums : Nat × Nat) (b : UInt8) : Nat × Nat :=
  let a := (sums.1 + b.toNat) % modulus
  (a, (sums.2 + a) % modulus)

/-- The checksum, with the second sum in the more significant half. -/
def adler32 (bytes : Array UInt8) : Nat :=
  let (a, b) := bytes.foldl add (1, 0)
  b * 0x10000 + a

end Checksum
end ChipEight
