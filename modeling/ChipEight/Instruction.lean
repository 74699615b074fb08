import ChipEight.Operation
import ChipEight.Text.Hex

/-!
# ChipEight.Instruction

An instruction is one sixteen-bit word. Its operands always stand in the same places, whatever the
operation: `x` and `y` select registers, `n`, `nn` and `nnn` are a nibble, a byte and an address.

* `Instruction.ofInt`: the word that is left of an integer in its low sixteen bits.
* `Instruction.operation`: decoding. The first nibble decides which of the others belong to the
  operation; a word that no operation owns is `unknown`.
-/

namespace ChipEight

/-- One instruction word. -/
structure Instruction where
  word : UInt16
deriving DecidableEq, Repr, Inhabited

namespace Instruction

/-- The instruction in the low sixteen bits of an integer. -/
def ofInt (raw : Int) : Instruction :=
  ⟨UInt16.ofNat (raw % 0x10000).toNat⟩

/-- The instruction made of two bytes, the more significant one first. -/
def ofBytes (high low : UInt8) : Instruction :=
  ⟨UInt16.ofNat (high.toNat * 0x100 + low.toNat)⟩

/-- The word as a number. -/
def raw (i : Instruction) : Nat := i.word.toNat

/-- The first nibble, which selects the family of operations. -/
def family (i : Instruction) : Fin 16 := ⟨i.raw / 0x1000 % 0x10, by omega⟩

/-- The first register. -/
def x (i : Instruction) : Fin 16 := ⟨i.raw / 0x100 % 0x10, by omega⟩

/-- The second register. -/
def y (i : Instruction) : Fin 16 := ⟨i.raw / 0x10 % 0x10, by omega⟩

/-- The last nibble. -/
def n (i : Instruction) : Fin 16 := ⟨i.raw % 0x10, by omega⟩

/-- The last byte. -/
def nn (i : Instruction) : UInt8 := UInt8.ofNat (i.raw % 0x100)

/-- The last three nibbles, an address. -/
def nnn (i : Instruction) : Nat := i.raw % 0x1000

/-- The operation that owns the word. -/
def operation (i : Instruction) : Operation :=
  match i.family.val, i.x.val, i.y.val, i.n.val with
  | 0x0, 0x0, 0x0, 0x0 => .nop
  | 0x0, 0x0, 0xE, 0x0 => .clearScreen
  | 0x0, 0x0, 0xE, 0xE => .ret
  | 0x1, _, _, _ => .jump
  | 0x2, _, _, _ => .call
  | 0x3, _, _, _ => .skipEqualByte
  | 0x4, _, _, _ => .skipNotEqualByte
  | 0x5, _, _, 0x0 => .skipEqual
  | 0x6, _, _, _ => .loadByte
  | 0x7, _, _, _ => .addByte
  | 0x8, _, _, 0x0 => .copy
  | 0x8, _, _, 0x1 => .or
  | 0x8, _, _, 0x2 => .and
  | 0x8, _, _, 0x3 => .xor
  | 0x8, _, _, 0x4 => .add
  | 0x8, _, _, 0x5 => .sub
  | 0x8, _, _, 0x6 => .shiftRight
  | 0x8, _, _, 0x7 => .subFrom
  | 0x8, _, _, 0xE => .shiftLeft
  | 0x9, _, _, 0x0 => .skipNotEqual
  | 0xA, _, _, _ => .loadIndex
  | 0xB, _, _, _ => .jumpOffset
  | 0xC, _, _, _ => .random
  | 0xD, _, _, _ => .draw
  | 0xE, _, 0x9, 0xE => .skipKey
  | 0xE, _, 0xA, 0x1 => .skipNotKey
  | 0xF, _, 0x0, 0x7 => .readDelay
  | 0xF, _, 0x0, 0xA => .waitKey
  | 0xF, _, 0x1, 0x5 => .setDelay
  | 0xF, _, 0x1, 0x8 => .setSound
  | 0xF, _, 0x1, 0xE => .addIndex
  | 0xF, _, 0x2, 0x9 => .glyph
  | 0xF, _, 0x3, 0x3 => .decimal
  | 0xF, _, 0x5, 0x5 => .store
  | 0xF, _, 0x6, 0x5 => .load
  | _, _, _, _ => .unknown

/-- The word in four capital digits. -/
protected def toString (i : Instruction) : String := String.ofList (Hex.word i.word)

/-- The word with the name of its type, as a debugger shows a value. -/
def describe (i : Instruction) : String :=
  "Instruction(0x" ++ i.toString ++ ")"

end Instruction
end ChipEight
