import ChipEight.Machine.Basic

/-!
# ChipEight.Machine.Execute

What each instruction does. The program counter has already moved past the instruction, and a flag
is always set last, so that it wins when the result goes to the flag register too.

* `Machine.execute`: the effect of the instruction that the machine holds. It either happens as a
  whole or is refused, and then nothing has changed.
-/

namespace ChipEight
namespace Machine

/-- Sets a register and then the flag. -/
def setResult (m : Machine) (r : Fin 16) (b : UInt8) (flag : Bool) : Machine :=
  (m.setReg r b).setFlag flag

/-- Sum of two registers; the flag is the carry. -/
def addRegs (m : Machine) (x y : Fin 16) : Machine :=
  m.setResult x (m.reg x + m.reg y) (255 < (m.reg x).toNat + (m.reg y).toNat)

/-- Difference of two bytes to a register; the flag says that nothing was borrowed. -/
def subTo (m : Machine) (x : Fin 16) (a b : UInt8) : Machine :=
  m.setResult x (a - b) (b ≤ a)

/-- Register `y` shifted right to register `x`; the flag is the last bit that `x` had. -/
def shiftRight (m : Machine) (x y : Fin 16) : Machine :=
  m.setResult x (m.reg y >>> 1) ((m.reg x).toNat.testBit 0)

/-- Register `y` shifted left to register `x`; the flag is the first bit that `x` had. -/
def shiftLeft (m : Machine) (x y : Fin 16) : Machine :=
  m.setResult x (m.reg y <<< 1) ((m.reg x).toNat.testBit 7)

/-- The rows of a sprite of a height, which begins where the index register points. -/
def spriteRows (m : Machine) (height : Nat) : List UInt8 :=
  (List.range height).map fun row : Nat => m.peek (m.index + row)

/-- Draws a sprite; the flag is the collision. -/
def drawSprite (m : Machine) (x y n : Fin 16) : Machine :=
  let (screen, erased) := m.screen.draw (m.spriteRows n) (m.reg x).toNat (m.reg y).toNat
  { m with screen }.setFlag erased

/-- Waits for a key by going back to the same instruction, or takes the key that went down last. -/
def awaitKey (m : Machine) (x : Fin 16) : Machine :=
  match m.keys.last with
  | none => { m with pc := m.pc - 2 }
  | some k => m.setReg x (UInt8.ofNat k.val)

/-- Copies the delay timer to a register. -/
def readDelay (m : Machine) (x : Fin 16) : Except Fault Machine :=
  if 0 ≤ m.delay ∧ m.delay < 256 then .ok (m.setReg x (UInt8.ofNat m.delay.toNat))
  else .error (.notAByte m.delay)

/-- Writes the three decimal digits of a byte. Only the first address is taken as it is; the others
wrap. -/
def writeDecimal (m : Machine) (b : UInt8) : Except Fault Machine :=
  match m.memory.locate m.index with
  | .error f => .error (.memory f)
  | .ok _ => .ok (((m.poke m.index (b / 100)).poke (m.index + 1) (b / 10 % 10)).poke
      (m.index + 2) (b % 10))

/-- Writes the registers up to `x` and moves the index register past them. -/
def storeRegs (m : Machine) (x : Fin 16) : Machine :=
  ((List.finRange 16).filter (· ≤ x)).foldl (fun t r => t.poke (m.index + r.val) (m.reg r)) m
    |>.setIndex (m.index + x.val + 1)

/-- Reads the registers up to `x` and moves the index register past them. -/
def loadRegs (m : Machine) (x : Fin 16) : Machine :=
  ((List.finRange 16).filter (· ≤ x)).foldl (fun t r => t.setReg r (m.peek (m.index + r.val))) m
    |>.setIndex (m.index + x.val + 1)

/-- The address that lies as far behind another as the first register says. -/
def offset (m : Machine) (address : Nat) : Int := address + (m.reg ⟨0, by decide⟩).toNat

/-- Calls the subroutine at an address. -/
def callTo (m : Machine) (address : Int) : Except Fault Machine :=
  match m.calls.push m.pc with
  | .error f => .error (.stack f)
  | .ok calls => .ok { m with calls, pc := address }

/-- Returns to where the last call came from. -/
def returnBack (m : Machine) : Except Fault Machine :=
  match m.calls.pop with
  | .error f => .error (.stack f)
  | .ok (pc, calls) => .ok { m with calls, pc }

/-- The effect of the instruction that the machine holds, given a random byte. -/
def execute (m : Machine) (random : UInt8) : Except Fault Machine :=
  let i := m.instruction
  let x := i.x
  let y := i.y
  match i.operation with
  | .nop => .ok m
  | .clearScreen => .ok { m with screen := .blank }
  | .ret => m.returnBack
  | .jump => .ok { m with pc := i.nnn }
  | .call => m.callTo i.nnn
  | .skipEqualByte => .ok (m.skipIf (m.reg x == i.nn))
  | .skipNotEqualByte => .ok (m.skipIf (m.reg x != i.nn))
  | .skipEqual => .ok (m.skipIf (m.reg x == m.reg y))
  | .loadByte => .ok (m.setReg x i.nn)
  | .addByte => .ok (m.setReg x (m.reg x + i.nn))
  | .copy => .ok (m.setReg x (m.reg y))
  | .or => .ok (m.setResult x (m.reg x ||| m.reg y) false)
  | .and => .ok (m.setResult x (m.reg x &&& m.reg y) false)
  | .xor => .ok (m.setResult x (m.reg x ^^^ m.reg y) false)
  | .add => .ok (m.addRegs x y)
  | .sub => .ok (m.subTo x (m.reg x) (m.reg y))
  | .shiftRight => .ok (m.shiftRight x y)
  | .subFrom => .ok (m.subTo x (m.reg y) (m.reg x))
  | .shiftLeft => .ok (m.shiftLeft x y)
  | .skipNotEqual => .ok (m.skipIf (m.reg x != m.reg y))
  | .loadIndex => .ok { m with index := i.nnn }
  | .jumpOffset => .ok { m with pc := m.offset i.nnn }
  | .random => .ok (m.setReg x (random &&& i.nn))
  | .draw => .ok (m.drawSprite x y i.n)
  | .skipKey => .ok (m.skipIf (m.keys.isHeld (m.reg x).toNat))
  | .skipNotKey => .ok (m.skipIf (!m.keys.isHeld (m.reg x).toNat))
  | .readDelay => m.readDelay x
  | .waitKey => .ok (m.awaitKey x)
  | .setDelay => .ok { m with delay := (m.reg x).toNat }
  | .setSound => .ok { m with sound := (m.reg x).toNat }
  | .addIndex => .ok (m.setIndex (m.index + (m.reg x).toNat))
  | .glyph => .ok { m with index := Font.sprite (m.reg x) }
  | .decimal => m.writeDecimal (m.reg x)
  | .store => .ok (m.storeRegs x)
  | .load => .ok (m.loadRegs x)
  | .unknown => .error (.unknownInstruction i m.pc)

end Machine
end ChipEight
