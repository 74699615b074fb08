/-!
# ChipEight.Operation

The operations of the machine. There are thirty-five of them, and every instruction word that none
of them owns is `unknown`.

* `Operation.mnemonic`: how a listing shows the operation, with its operands by name.
-/

namespace ChipEight

/-- What an instruction tells the machine to do. -/
inductive Operation where
  | nop
  | clearScreen
  | ret
  | jump
  | call
  | skipEqualByte
  | skipNotEqualByte
  | skipEqual
  | loadByte
  | addByte
  | copy
  | or
  | and
  | xor
  | add
  | sub
  | shiftRight
  | subFrom
  | shiftLeft
  | skipNotEqual
  | loadIndex
  | jumpOffset
  | random
  | draw
  | skipKey
  | skipNotKey
  | readDelay
  | waitKey
  | setDelay
  | setSound
  | addIndex
  | glyph
  | decimal
  | store
  | load
  | unknown
deriving DecidableEq, Repr, Inhabited

namespace Operation

/-- The listing text of an operation. -/
def mnemonic : Operation → String
  | nop => "NOP"
  | clearScreen => "CLS"
  | ret => "RET"
  | jump => "JP addr"
  | call => "CALL addr"
  | skipEqualByte => "SE Vx, byte"
  | skipNotEqualByte => "SNE Vx, byte"
  | skipEqual => "SE Vx, Vy"
  | loadByte => "LD Vx, byte"
  | addByte => "ADD Vx, byte"
  | copy => "LD Vx, Vy"
  | or => "OR Vx, Vy"
  | and => "AND Vx, Vy"
  | xor => "XOR Vx, Vy"
  | add => "ADD Vx, Vy"
  | sub => "SUB Vx, Vy"
  | shiftRight => "SHR Vx, Vy"
  | subFrom => "SUBN Vx, Vy"
  | shiftLeft => "SHL Vx, Vy"
  | skipNotEqual => "SNE Vx, Vy"
  | loadIndex => "LD I, addr"
  | jumpOffset => "JP V0, addr"
  | random => "RND Vx, byte"
  | draw => "DRW Vx, Vy, n"
  | skipKey => "SKP Vx"
  | skipNotKey => "SKNP Vx"
  | readDelay => "LD Vx, DT"
  | waitKey => "LD Vx, K"
  | setDelay => "LD DT, Vx"
  | setSound => "LD ST, Vx"
  | addIndex => "ADD I, Vx"
  | glyph => "LD F, Vx"
  | decimal => "LD B, Vx"
  | store => "LD [I], Vx"
  | load => "LD Vx, [I]"
  | unknown => "???"

/-- Whether the screen is shown again after the operation. -/
def redraws (op : Operation) : Bool :=
  op == clearScreen || op == draw

end Operation
end ChipEight
