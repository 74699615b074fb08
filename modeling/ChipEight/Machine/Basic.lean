import ChipEight.CallStack
import ChipEight.Font
import ChipEight.Instruction
import ChipEight.Keypad
import ChipEight.Memory
import ChipEight.Screen

/-!
# ChipEight.Machine.Basic

The state of the machine, and the small changes that instructions are made of. The index register,
the program counter, the two timers and the return addresses are integers, because a debugger may
put any value there; sixteen registers and the memory hold bytes.

* `Machine.load?`: a machine with a program in memory, if the program fits.
* `Machine.setReg`, `Machine.setFlag`, `Machine.skipIf`, `Machine.poke`: the small changes.
* `Machine.wrap`: the address that is left of an integer in twelve bits.
-/

namespace ChipEight

/-- The state of the machine. -/
structure Machine where
  memory : Memory 4096
  v : Vector UInt8 16
  index : Int
  pc : Int
  /-- Where the instruction that ran last was fetched. -/
  executing : Int
  calls : CallStack none
  delay : Int
  sound : Int
  /-- When the timers last counted down. -/
  lastTick : Float
  keys : Keypad
  instruction : Instruction
  screen : Screen

namespace Machine

/-- The size of memory in bytes. -/
def memorySize : Nat := 4096

/-- Where programs begin. -/
def origin : Nat := 0x200

/-- The greatest size of a program in bytes. -/
def capacity : Nat := memorySize - origin

/-- Why a program cannot be loaded: it is `excess` bytes too long. -/
structure TooBig where
  excess : Nat
deriving DecidableEq, Repr

/-- What a program that is too long is reported as. -/
def TooBig.message (f : TooBig) : String :=
  "ROM size exceeds the amount of RAM provided by the emulator by " ++ toString f.excess ++ " bytes"

/-- Memory with the font at its bottom and a program at the origin. -/
def image (program : Array UInt8) : Memory 4096 :=
  ((Memory.zero 4096).overlay Font.address Font.sprites).overlay origin program

/-- A machine that is about to run a program, switched on at a time. -/
def boot (program : Array UInt8) (time : Float) : Machine where
  memory := image program
  v := Vector.replicate 16 0
  index := 0
  pc := origin
  executing := origin
  calls := .empty
  delay := 0
  sound := 0
  lastTick := time
  keys := .released
  instruction := ⟨0⟩
  screen := .blank

/-- Refuses a program that is too long. -/
def checkSize (program : Array UInt8) : Except TooBig Unit :=
  if program.size > capacity then .error ⟨program.size - capacity⟩ else .ok ()

/-- A machine with a program in memory, if the program fits. -/
def load? (program : Array UInt8) (time : Float) : Except TooBig Machine :=
  (checkSize program).map fun () => boot program time

/-- Why the machine cannot go on. -/
inductive Fault where
  /-- The program counter does not point at an instruction. -/
  | endOfProgram
  /-- No operation owns the word; the program counter has already moved past it. -/
  | unknownInstruction (instruction : Instruction) (pc : Int)
  | memory (fault : Memory.Fault)
  | stack (fault : CallStack.Fault)
  /-- A timer that holds no byte was copied to a register. -/
  | notAByte (value : Int)
deriving DecidableEq, Repr

/-- What a fault of the machine is reported as. -/
def Fault.message : Fault → String
  | .endOfProgram => "There aren't any more instructions to run"
  | .unknownInstruction instruction pc =>
    "Instruction opcode 0x" ++ instruction.toString ++ " at 0x" ++ Hex.text 3 pc ++ " is unknown"
  | .memory fault => fault.message
  | .stack fault => fault.message
  | .notAByte _ => "A register holds a number between 0 and 255"

/-- The operation of the last instruction. -/
def operation (m : Machine) : Operation := m.instruction.operation

/-- The value of a register. -/
def reg (m : Machine) (r : Fin 16) : UInt8 := m.v[r]

/-- Sets a register. -/
def setReg (m : Machine) (r : Fin 16) (b : UInt8) : Machine := { m with v := m.v.set r b }

/-- Sets the last register, which takes carries and collisions. -/
def setFlag (m : Machine) (b : Bool) : Machine := m.setReg 0xF b.toUInt8

/-- Moves past the next instruction if a condition holds. -/
def skipIf (m : Machine) (b : Bool) : Machine := if b then { m with pc := m.pc + 2 } else m

/-- The address that is left of an integer in twelve bits. -/
def wrap (a : Int) : Fin 4096 := ⟨(a % 4096).toNat, by omega⟩

/-- Sets the byte at an address taken in twelve bits. -/
def poke (m : Machine) (a : Int) (b : UInt8) : Machine :=
  { m with memory := m.memory.put (wrap a) b }

/-- The byte at an address taken in twelve bits. -/
def peek (m : Machine) (a : Int) : UInt8 := m.memory.get (wrap a)

/-- Moves the index register, keeping twelve bits. -/
def setIndex (m : Machine) (a : Int) : Machine := { m with index := (wrap a).val }

@[simp] theorem reg_setReg_same (m : Machine) (r : Fin 16) (b : UInt8) :
    (m.setReg r b).reg r = b := by
  simp [reg, setReg]

theorem reg_setReg_other (m : Machine) {r q : Fin 16} (b : UInt8) (h : r ≠ q) :
    (m.setReg r b).reg q = m.reg q := by
  have : r.val ≠ q.val := fun e => h (Fin.ext e)
  simp [reg, setReg, this]

end Machine
end ChipEight
