/-!
# ChipEight.Font

The built-in font: a sprite of five rows for each hexadecimal digit. It lies at the bottom of
memory.
-/

namespace ChipEight
namespace Font

/-- The address of the first sprite. -/
def address : Nat := 0

/-- The number of rows of a sprite. -/
def height : Nat := 5

/-- The sprites of the digits in order. -/
def sprites : Array UInt8 := #[
  0xF0, 0x90, 0x90, 0x90, 0xF0,
  0x20, 0x60, 0x20, 0x20, 0x70,
  0xF0, 0x10, 0xF0, 0x80, 0xF0,
  0xF0, 0x10, 0xF0, 0x10, 0xF0,
  0x90, 0x90, 0xF0, 0x10, 0x10,
  0xF0, 0x80, 0xF0, 0x10, 0xF0,
  0xF0, 0x80, 0xF0, 0x90, 0xF0,
  0xF0, 0x10, 0x20, 0x40, 0x40,
  0xF0, 0x90, 0xF0, 0x90, 0xF0,
  0xF0, 0x90, 0xF0, 0x10, 0xF0,
  0xF0, 0x90, 0xF0, 0x90, 0x90,
  0xE0, 0x90, 0xE0, 0x90, 0xE0,
  0xF0, 0x80, 0x80, 0x80, 0xF0,
  0xE0, 0x90, 0x90, 0x90, 0xE0,
  0xF0, 0x80, 0xF0, 0x80, 0xF0,
  0xF0, 0x80, 0xF0, 0x80, 0x80]

/-- The address of the sprite of a digit. Numbers beyond the digits point past the font. -/
def sprite (digit : UInt8) : Int := address + height * digit.toNat

theorem size_sprites : sprites.size = 16 * height := rfl

end Font
end ChipEight
