import ChipEight.Count
import ChipEight.Slice
import ChipEight.Text.Hex

/-!
# ChipEight.Memory

Byte memory of a fixed size. Addresses are integers, so that a wrong one can be named; nothing here
wraps. A block is checked at its last address only: one that begins below zero and ends inside is
taken by the rule of `Slice`, which counts a negative bound from the end.

* `Memory.read`, `Memory.write`: one byte.
* `Memory.readBlock`, `Memory.writeBlock`: a row of bytes.
* `Memory.get_put_same`, `Memory.get_put_other`: a write changes its own byte and no other.
-/

namespace ChipEight

/-- A memory of `size` bytes. -/
structure Memory (size : Nat) where
  bytes : Vector UInt8 size
deriving DecidableEq, Repr

namespace Memory

/-- Why an access to memory was refused. -/
inductive Fault where
  /-- The address lies outside the memory. -/
  | outOfRange (address : Int)
  /-- The number written is not a byte. -/
  | notAByte (value : Int)
  /-- The range written has another length than the data. -/
  | lengthMismatch (range data : Nat)
deriving DecidableEq, Repr

/-- What a refused access is reported as. -/
def Fault.message : Fault → String
  | .outOfRange address => "Memory address 0x" ++ Hex.text 0 address ++ " is out of range"
  | .notAByte _ => "A byte must be between 0 and 255"
  | .lengthMismatch .. => "The range and the data differ in length"

variable {size : Nat}

/-- A memory full of zeros. -/
def zero (size : Nat) : Memory size := ⟨Vector.replicate size 0⟩

/-- A memory of a size given as a number, if the number is a size. -/
def ofSize (size : Int) : Except Count.Fault ((n : Nat) × Memory n) :=
  (Count.ofInt size).map fun n => ⟨n, zero n⟩

/-- Whether an address lies inside the memory. -/
def contains (_ : Memory size) (address : Int) : Bool :=
  0 ≤ address && address < size

/-- Refuses an address outside the memory. -/
def check (m : Memory size) (address : Int) : Except Fault Unit :=
  if m.contains address then .ok () else .error (.outOfRange address)

/-- The byte at an address that is known to be inside. -/
def get (m : Memory size) (a : Fin size) : UInt8 := m.bytes[a]

/-- The memory with another byte at an address that is known to be inside. -/
def put (m : Memory size) (a : Fin size) (b : UInt8) : Memory size := ⟨m.bytes.set a b⟩

@[simp] theorem get_put_same (m : Memory size) (a : Fin size) (b : UInt8) :
    (m.put a b).get a = b := by
  simp [get, put]

theorem get_put_other (m : Memory size) {a c : Fin size} (b : UInt8) (h : a ≠ c) :
    (m.put a b).get c = m.get c := by
  have : a.val ≠ c.val := fun e => h (Fin.ext e)
  simp [get, put, this]

@[ext] theorem ext_get {m m' : Memory size} (h : ∀ a, m.get a = m'.get a) : m = m' := by
  cases m with | mk b => cases m' with | mk b' =>
  congr 1
  apply Vector.ext
  intro i hi
  exact h ⟨i, hi⟩

/-- An address inside the memory, checked. -/
def locate (_ : Memory size) (address : Int) : Except Fault (Fin size) :=
  if h : 0 ≤ address ∧ address < size then .ok ⟨address.toNat, by omega⟩
  else .error (.outOfRange address)

/-- The byte at an address. -/
def read (m : Memory size) (address : Int) : Except Fault UInt8 :=
  (m.locate address).map m.get

/-- Writes a byte. The address is checked before the number. -/
def write (m : Memory size) (address value : Int) : Except Fault (Memory size) :=
  match m.locate address with
  | .error f => .error f
  | .ok a =>
    if 0 ≤ value ∧ value < 256 then .ok (m.put a (UInt8.ofNat value.toNat))
    else .error (.notAByte value)

/-- The bytes of a range that begins at `address`. -/
def readBlock (m : Memory size) (address count : Int) : Except Fault (List UInt8) :=
  match m.check (address + count - 1) with
  | .error f => .error f
  | .ok () => .ok (Slice.cells m.bytes.toArray address (address + count)).toList

/-- The memory with the bytes from `start` on replaced by those of a row. -/
def overlay (m : Memory size) (start : Nat) (data : Array UInt8) : Memory size :=
  ⟨Vector.ofFn fun a => if a < start then m.get a else (data[a.val - start]?).getD (m.get a)⟩

theorem get_overlay (m : Memory size) (start : Nat) (data : Array UInt8) (a : Fin size) :
    (m.overlay start data).get a =
      if a < start then m.get a else (data[a.val - start]?).getD (m.get a) := by
  simp [overlay, get]

/-- Writes a row of bytes from `address` on. -/
def writeBlock (m : Memory size) (address : Int) (data : Array UInt8) :
    Except Fault (Memory size) :=
  let stop := address + data.size
  match m.check (stop - 1) with
  | .error f => .error f
  | .ok () =>
    let width := Slice.width size address stop
    if width = data.size then .ok (m.overlay (Slice.bound size address) data)
    else .error (.lengthMismatch width data.size)

/-- All bytes in order of address. -/
def toList (m : Memory size) : List UInt8 := m.bytes.toList

end Memory
end ChipEight
