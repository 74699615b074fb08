import ChipEight.Machine.Cycle

/-!
# ChipEight.Machine.Listing

The state of the machine as text: all registers from the last to the first, the index register, the
timers, and the last instruction with its address.

* `Machine.line`: the state on one line.
* `Machine.dump`: the same with the return addresses on a second line.
-/

namespace ChipEight
namespace Machine

/-- The registers from the last to the first, two digits each. -/
def registerDigits (m : Machine) : List Char := Hex.bytes m.v.toList.reverse

/-- The characters of the state on one line. -/
def lineChars (m : Machine) : List Char :=
  "V: 0x".toList ++ (m.registerDigits ++
  (" I: 0x".toList ++ (Hex.padded 3 m.index ++
  (" DT: 0x".toList ++ (Hex.padded 2 m.delay ++
  (" ST: 0x".toList ++ (Hex.padded 2 m.sound ++
  (" PC: 0x".toList ++ (Hex.padded 3 m.executing ++
  (" OP: 0x".toList ++ (Hex.word m.instruction.word ++
  (" IN: ".toList ++ m.operation.mnemonic.toList))))))))))))

/-- The state on one line. -/
def line (m : Machine) : String := String.ofList m.lineChars

/-- The characters of one return address. -/
def addressChars (a : Int) : List Char := " 0x".toList ++ Hex.padded 3 a

/-- The characters of the return addresses from the bottom to the top. -/
def stackChars (m : Machine) : List Char :=
  match m.calls.toList with
  | [] => " (Empty)".toList
  | items => items.flatMap addressChars

/-- The state with the return addresses on a second line. -/
def dump (m : Machine) : String :=
  String.ofList (m.lineChars ++ ("\nStack:".toList ++ m.stackChars))

end Machine
end ChipEight
