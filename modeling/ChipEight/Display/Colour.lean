import ChipEight.Text.Integer

/-!
# ChipEight.Display.Colour

Colours as text: a hash sign and three pairs of characters, each a number to base sixteen. A pair is
read as freely as any such number, so it may hold a sign or a blank, and its value may be negative.

* `Colour.parse`: the three values.
* `Rgb.ofColour`: the same as bytes, which not every colour has.
-/

namespace ChipEight

/-- Three values read from text: red, green and blue. -/
structure Colour where
  red : Int
  green : Int
  blue : Int
deriving DecidableEq, Repr

namespace Colour

/-- Why a text is no colour. -/
inductive Fault where
  /-- The text is not a hash sign and six characters. -/
  | form
  /-- One of the pairs is no number. -/
  | digits (text : String)
deriving DecidableEq, Repr

/-- What a text that is no colour is reported as. -/
def Fault.message : Fault → String
  | .form => "Colours must be given as '#' followed by 6 hex digits, e.g. #FFFFFF."
  | .digits text => "Invalid colour " ++ text ++ " defined."

/-- The value of a pair of characters. -/
def pair? (a b : Char) : Option Int := Numeral.hexadecimal.read? [a, b]

/-- The three values of a colour. -/
def parse (text : String) : Except Fault Colour :=
  match text.toList with
  | ['#', a, b, c, d, e, f] =>
    match pair? a b, pair? c d, pair? e f with
    | some red, some green, some blue => .ok ⟨red, green, blue⟩
    | _, _, _ => .error (.digits text)
  | _ => .error .form

end Colour

/-- Three bytes: red, green and blue. -/
structure Rgb where
  red : UInt8
  green : UInt8
  blue : UInt8
deriving DecidableEq, Repr

namespace Rgb

/-- The bytes of a colour, if each value is one. -/
def ofColour (c : Colour) : Option Rgb :=
  if 0 ≤ c.red ∧ c.red < 256 ∧ 0 ≤ c.green ∧ c.green < 256 ∧ 0 ≤ c.blue ∧ c.blue < 256 then
    some ⟨.ofNat c.red.toNat, .ofNat c.green.toNat, .ofNat c.blue.toNat⟩
  else none

end Rgb
end ChipEight
