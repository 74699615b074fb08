import ChipEight.Count
import ChipEight.Text.Hex

/-!
# ChipEight.Keypad

The keypad has sixteen keys. It holds which of them are down, one bit each, and the key that went
down last. A release does not clear the last key, so a short tap is not lost before the machine has
looked.

* `Keypad.press`, `Keypad.release`: one key of the sixteen.
* `Keypad.isHeld`: whether a key is down; numbers beyond the sixteen keys never are.
* `Keypad.pressAt`, `Keypad.releaseAt`: the same by number, which may be no key's.
* `Keypad.heldAt`: asks by number. The number counts bits, so it has to fit the word of a count.
-/

namespace ChipEight

/-- One of the sixteen keys. -/
abbrev Key := Fin 16

/-- The keys that are down, and the key that went down last. -/
structure Keypad where
  held : BitVec 16
  last : Option Key
deriving DecidableEq, Repr

namespace Keypad

/-- Why a keypad refused a number. -/
inductive Fault where
  /-- No key has this number. -/
  | outOfRange (key : Int)
  /-- A number was asked about that counts no bits. -/
  | uncounted (key : Int) (fault : Count.Fault)
deriving DecidableEq, Repr

/-- What a refused number is reported as. -/
def Fault.message : Fault → String
  | .outOfRange key => "Key 0x" ++ Hex.text 0 key ++ " is out of range -- keys must be 0-F"
  | .uncounted _ .negative => "A key number cannot be negative"
  | .uncounted _ .tooLarge => "A key number has at most 64 bits"

/-- No key is down, and none was. -/
def released : Keypad := ⟨0, none⟩

/-- Puts a key down. -/
def press (p : Keypad) (k : Key) : Keypad :=
  ⟨p.held ||| (1#16 <<< k.val), some k⟩

/-- Lets a key go. -/
def release (p : Keypad) (k : Key) : Keypad :=
  { p with held := p.held &&& ~~~(1#16 <<< k.val) }

/-- Forgets which key went down last. -/
def forget (p : Keypad) : Keypad :=
  { p with last := none }

/-- Whether the key with a number is down. -/
def isHeld (p : Keypad) (k : Nat) : Bool := p.held.getLsbD k

/-- The keys that are down as a number, key `k` counting `2 ^ k`. -/
def mask (p : Keypad) : Nat := p.held.toNat

/-- The key with a number, if it is one of the sixteen. -/
def key? (k : Int) : Except Fault Key :=
  if h : 0 ≤ k ∧ k ≤ 0xF then .ok ⟨k.toNat, by omega⟩ else .error (.outOfRange k)

/-- Puts the key with a number down. -/
def pressAt (p : Keypad) (k : Int) : Except Fault Keypad :=
  (key? k).map p.press

/-- Lets the key with a number go. -/
def releaseAt (p : Keypad) (k : Int) : Except Fault Keypad :=
  (key? k).map p.release

/-- Whether the key with a number is down. A negative number is refused as such, however large. -/
def heldAt (p : Keypad) (k : Int) : Except Fault Bool :=
  if k < 0 then .error (.uncounted k .negative)
  else if Count.fits k then .ok (p.isHeld k.toNat)
  else .error (.uncounted k .tooLarge)

/-- The keypad with the name of its type, as a debugger shows a value. -/
def describe (p : Keypad) : String :=
  "Keys(mask=0x" ++ Hex.text 4 p.mask ++ ", last_pressed=" ++
    (match p.last with
      | some k => toString k.val
      | none => "None") ++ ")"

/-- The word with one bit set. -/
theorem getLsbD_one_shiftLeft (k : Key) (j : Nat) :
    (1#16 <<< k.val).getLsbD j = decide (j = k) := by
  simp only [BitVec.getLsbD_shiftLeft, BitVec.getLsbD_one]
  have := k.isLt
  by_cases h : j = k
  · subst h; simp
  · by_cases h' : j < k
    · simp [h, h']
    · have : j - k ≠ 0 := by omega
      simp [h, this]

/-- A press puts its own key down and leaves the others. -/
@[simp] theorem isHeld_press (p : Keypad) (k : Key) (j : Nat) :
    (p.press k).isHeld j = (decide (j = k) || p.isHeld j) := by
  simp only [isHeld, press, BitVec.getLsbD_or, getLsbD_one_shiftLeft, Bool.or_comm]

/-- A release lets its own key go and leaves the others. -/
@[simp] theorem isHeld_release (p : Keypad) (k : Key) (j : Nat) :
    (p.release k).isHeld j = (!decide (j = k) && p.isHeld j) := by
  simp only [isHeld, release, BitVec.getLsbD_and, BitVec.getLsbD_not, getLsbD_one_shiftLeft]
  by_cases hj : j < 16
  · simp [hj, Bool.and_comm]
  · have : p.held.getLsbD j = false := BitVec.getLsbD_of_ge _ _ (by omega)
    simp [this]

end Keypad
end ChipEight
